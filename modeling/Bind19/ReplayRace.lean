/-
**Concurrent checks on one replay cache.**

A check of a sequence number is not one step.  On a known source it takes a reference to the entry
and loads the number on record in one step, and stores the new number in another; on an unknown
source it reads the size of the cache, inserts a new entry, and puts back the entry its insertion
displaced when that one turns out to have the greater number.  While a thread holds a reference to
an entry, nothing is inserted into the shard of that entry; other references to it may be taken.

This module models the steps of any number of such checks, in any order.  A clean-up and a removal
do not run meanwhile.  Beside the cache the model keeps, as history, the numbers that were accepted
for each source; at the beginning that is the number on record.

Main definitions:

* `Bind19.CheckPhase`, `Bind19.CheckCall` — a check and how far it has come;
* `Bind19.CheckCall.tick` — its next atomic step;
* `Bind19.CheckStep` — what a step can do.

Main results:

* `Bind19.CheckCall.tick_cases` — **what a step can do**;
* `Bind19.CheckCall.run_alone` — a check that runs alone does what the sequential operation does.
-/

import Bind19.ReplayCache
import Bind19.Runs
import Bind19.Threads
import Mathlib.Logic.Function.Basic

set_option relaxedAutoImplicit false
set_option autoImplicit false

namespace Bind19

/-! ### Calls -/

/-- How far a check has come. -/
inductive CheckPhase
  /-- It has not looked at the cache yet. -/
  | started
  /-- It holds a reference to an entry with a smaller number. -/
  | loaded
  /-- It has found no entry. -/
  | missed
  /-- It has found room in the cache. -/
  | counted
  /-- It has displaced an entry with a number that is not smaller. -/
  | displaced (oldEntry : ReplayEntry)
  | returned (result : ReplayCheckResult)
  deriving DecidableEq

/-- A check in progress, or finished. -/
structure CheckCall where
  key : ReplayKey
  seq : UInt16
  phase : CheckPhase
  deriving DecidableEq

/-- What the checks share: the cache, and as history the numbers accepted for each source. -/
structure CheckShared where
  cache : ReplayCache
  allowed : ReplayKey → List UInt16

/-- The cache and the checks that run on it. -/
abbrev CheckState := Threads.State CheckShared CheckCall

namespace CheckShared

/-- The number on record for a source. -/
def lastSeq (g : CheckShared) (key : ReplayKey) : Option UInt16 := g.cache.lastSeq key

/-- An entry is stored under a key. -/
def put (g : CheckShared) (key : ReplayKey) (entry : ReplayEntry) : CheckShared :=
  { g with cache := { g.cache with entries := g.cache.entries.insert key entry } }

/-- A number is accepted. -/
def note (g : CheckShared) (key : ReplayKey) (seq : UInt16) : CheckShared :=
  { g with allowed := Function.update g.allowed key (g.allowed key ++ [seq]) }

theorem lastSeq_put (g : CheckShared) (key key' : ReplayKey) (entry : ReplayEntry) :
    (g.put key entry).lastSeq key' = if key' = key then some entry.lastSeq else g.lastSeq key' := by
  rw [lastSeq, ReplayCache.lastSeq, put, FiniteMap.get?_insert]
  by_cases h : key' = key
  · rw [if_pos h, if_pos h]
    rfl
  · rw [if_neg h, if_neg h, lastSeq, ReplayCache.lastSeq]

@[simp] theorem lastSeq_put_self (g : CheckShared) (key : ReplayKey) (entry : ReplayEntry) :
    (g.put key entry).lastSeq key = some entry.lastSeq := by
  rw [lastSeq_put, if_pos rfl]

@[simp] theorem lastSeq_note (g : CheckShared) (key key' : ReplayKey) (seq : UInt16) :
    (g.note key seq).lastSeq key' = g.lastSeq key' := rfl

@[simp] theorem allowed_put (g : CheckShared) (key : ReplayKey) (entry : ReplayEntry) :
    (g.put key entry).allowed = g.allowed := rfl

@[simp] theorem allowed_note_self (g : CheckShared) (key : ReplayKey) (seq : UInt16) :
    (g.note key seq).allowed key = g.allowed key ++ [seq] := Function.update_self ..

theorem allowed_note_of_ne {key key' : ReplayKey} (h : key' ≠ key) (g : CheckShared)
    (seq : UInt16) : (g.note key seq).allowed key' = g.allowed key' := Function.update_of_ne h ..

end CheckShared

namespace CheckCall

/-- A new check. -/
def start (request : ReplayKey × UInt16) : CheckCall :=
  { key := request.1, seq := request.2, phase := .started }

/-- The check with another phase. -/
def goto (call : CheckCall) (phase : CheckPhase) : CheckCall := { call with phase }

/-- The number of the entry that the check has displaced and may have to put back. -/
def displacedSeq (call : CheckCall) : Option UInt16 :=
  match call.phase with
  | .displaced oldEntry => some oldEntry.lastSeq
  | _ => none

/-- Whether the check has an answer. -/
def isReturned (call : CheckCall) : Bool :=
  match call.phase with
  | .returned _ => true
  | _ => false

variable (shard : ReplayKey → ℕ)

/-- Whether some check holds a reference into the shard of a key. -/
def shardHeld (s : CheckState) (key : ReplayKey) : Bool :=
  s.threads.any fun c => c.phase == .loaded && shard c.key == shard key

/-- The next atomic step of a check. -/
def tick (s : CheckState) (call : CheckCall) (now : Instant) : Option (CheckShared × CheckCall) :=
  let g := s.shared
  match call.phase with
  | .started =>
      -- the lookup and the load
      match g.cache.entries.get? call.key with
      | some entry =>
          if call.seq ≤ entry.lastSeq then some (g, call.goto (.returned .rejected))
          else some (g, call.goto .loaded)
      | none => some (g, call.goto .missed)
  | .loaded =>
      -- the store; the entry is there as long as the reference is held
      match g.cache.entries.get? call.key with
      | some entry =>
          some ((g.put call.key (entry.updateSeq call.seq now)).note call.key call.seq,
            call.goto (.returned .allowed))
      | none => none
  | .missed =>
      if g.cache.entries.len ≥ replayCacheMaxCapacity then
        some (g, call.goto (.returned .cacheFull))
      else some (g, call.goto .counted)
  | .counted =>
      if shardHeld shard s call.key then none
      else
        let g' := g.put call.key (ReplayEntry.new call.seq now)
        match g.cache.entries.get? call.key with
        | none => some (g'.note call.key call.seq, call.goto (.returned .allowed))
        | some oldEntry =>
            if call.seq ≤ oldEntry.lastSeq then some (g', call.goto (.displaced oldEntry))
            else some (g'.note call.key call.seq, call.goto (.returned .allowed))
  | .displaced oldEntry =>
      if shardHeld shard s call.key then none
      else some (g.put call.key oldEntry, call.goto (.returned .rejected))
  | .returned _ => none

end CheckCall

/-- The actions: a check begins, or takes its next step. -/
abbrev CheckAction := Threads.Action (ReplayKey × UInt16) Instant

/-- One action on the cache and its checks. -/
def CheckState.step (shard : ReplayKey → ℕ) : CheckState → CheckAction → Option CheckState :=
  Threads.step CheckCall.start (CheckCall.tick shard)

/-- A cache on which no check has begun.  The numbers on record were accepted before. -/
def CheckState.begin (cache : ReplayCache) : CheckState :=
  { shared := { cache, allowed := fun key => (cache.lastSeq key).toList }, threads := [] }

/-! ### What a step can do -/

/-- What a step of `call` can do to the shared data and to the call. -/
inductive CheckStep (g : CheckShared) (call : CheckCall) : CheckShared → CheckCall → Prop
  /-- It changes nothing but its own phase. -/
  | look (phase : CheckPhase) (hfrom : call.displacedSeq = none)
      (hto : (call.goto phase).displacedSeq = none)
      (hmissed : phase = .missed → g.lastSeq call.key = none)
      (hcounted : phase = .counted → call.phase = .missed) :
      CheckStep g call g (call.goto phase)
  /-- It stores its number in the entry it refers to. -/
  | store (entry : ReplayEntry) (hfrom : call.phase = .loaded) (hentry : entry.lastSeq = call.seq) :
      CheckStep g call ((g.put call.key entry).note call.key call.seq)
        (call.goto (.returned .allowed))
  /-- It inserts an entry above whatever was there. -/
  | insert (entry : ReplayEntry) (hfrom : call.phase = .counted)
      (hentry : entry.lastSeq = call.seq)
      (habove : ∀ last, g.lastSeq call.key = some last → last < call.seq) :
      CheckStep g call ((g.put call.key entry).note call.key call.seq)
        (call.goto (.returned .allowed))
  /-- It inserts an entry that is not above the one it displaces. -/
  | displace (entry oldEntry : ReplayEntry) (hfrom : call.phase = .counted)
      (hentry : entry.lastSeq = call.seq) (hold : g.lastSeq call.key = some oldEntry.lastSeq)
      (hle : call.seq ≤ oldEntry.lastSeq) :
      CheckStep g call (g.put call.key entry) (call.goto (.displaced oldEntry))
  /-- It puts back the entry it has displaced. -/
  | restore (oldEntry : ReplayEntry) (hfrom : call.phase = .displaced oldEntry) :
      CheckStep g call (g.put call.key oldEntry) (call.goto (.returned .rejected))

/-- A step keeps to the source of its check. -/
theorem CheckStep.frame {g g' : CheckShared} {call call' : CheckCall}
    (h : CheckStep g call g' call') :
    call'.key = call.key ∧ ∀ key, key ≠ call.key →
      g'.lastSeq key = g.lastSeq key ∧ g'.allowed key = g.allowed key := by
  cases h with
  | look phase => exact ⟨rfl, fun key _ => ⟨rfl, rfl⟩⟩
  | store entry | insert entry =>
      refine ⟨rfl, fun key hkey => ⟨?_, ?_⟩⟩
      · rw [CheckShared.lastSeq_note, CheckShared.lastSeq_put, if_neg hkey]
      · rw [CheckShared.allowed_note_of_ne hkey, CheckShared.allowed_put]
  | displace entry | restore entry =>
      refine ⟨rfl, fun key hkey => ⟨?_, rfl⟩⟩
      rw [CheckShared.lastSeq_put, if_neg hkey]

namespace CheckCall

variable {shard : ReplayKey → ℕ} {s : CheckState} {call : CheckCall} {now : Instant}

theorem displacedSeq_of_phase {phase : CheckPhase} (h : call.phase = phase)
    (hphase : ∀ oldEntry, phase ≠ .displaced oldEntry) : call.displacedSeq = none := by
  unfold displacedSeq
  rw [h]
  cases phase with
  | displaced oldEntry => exact absurd rfl (hphase oldEntry)
  | _ => rfl

/-- **What a step can do.** -/
theorem tick_cases {g : CheckShared} {call' : CheckCall}
    (h : tick shard s call now = some (g, call')) : CheckStep s.shared call g call' := by
  unfold tick at h
  dsimp only at h
  cases hphase : call.phase with
  | started =>
      rw [hphase] at h
      dsimp only at h
      have hfrom : call.displacedSeq = none := displacedSeq_of_phase hphase (by simp)
      cases hentry : s.shared.cache.entries.get? call.key with
      | some entry =>
          rw [hentry] at h
          dsimp only at h
          split at h <;> cases h
          · exact .look _ hfrom rfl (by simp) (by simp)
          · exact .look _ hfrom rfl (by simp) (by simp)
      | none =>
          rw [hentry] at h
          cases h
          exact .look _ hfrom rfl (fun _ => ReplayCache.lastSeq_eq_none hentry) (by simp)
  | loaded =>
      rw [hphase] at h
      dsimp only at h
      cases hentry : s.shared.cache.entries.get? call.key with
      | some entry =>
          rw [hentry] at h
          cases h
          exact .store _ hphase rfl
      | none =>
          rw [hentry] at h
          cases h
  | missed =>
      rw [hphase] at h
      dsimp only at h
      have hfrom : call.displacedSeq = none := displacedSeq_of_phase hphase (by simp)
      split at h <;> cases h
      · exact .look _ hfrom rfl (by simp) (by simp)
      · exact .look _ hfrom rfl (by simp) (fun _ => hphase)
  | counted =>
      rw [hphase] at h
      dsimp only at h
      split at h
      · cases h
      · cases hentry : s.shared.cache.entries.get? call.key with
        | none =>
            rw [hentry] at h
            cases h
            refine .insert _ hphase rfl fun last hlast => ?_
            rw [CheckShared.lastSeq, ReplayCache.lastSeq_eq_none hentry] at hlast
            cases hlast
        | some oldEntry =>
            rw [hentry] at h
            dsimp only at h
            have hlast : s.shared.lastSeq call.key = some oldEntry.lastSeq :=
              ReplayCache.lastSeq_eq_some hentry
            split at h
            · rename_i hle
              cases h
              exact .displace _ oldEntry hphase rfl hlast hle
            · rename_i hle
              cases h
              refine .insert _ hphase rfl fun last hlast' => ?_
              rw [hlast] at hlast'
              cases hlast'
              exact UInt16.not_le.1 hle
  | displaced oldEntry =>
      rw [hphase] at h
      dsimp only at h
      split at h
      · cases h
      · cases h
        exact .restore oldEntry hphase
  | returned result =>
      rw [hphase] at h
      cases h

/-! ### A check that runs alone -/

/-- The step of the only check. -/
theorem step_alone {g g' : CheckShared} {call' : CheckCall}
    (h : tick shard { shared := g, threads := [call] } call now = some (g', call')) :
    CheckState.step shard { shared := g, threads := [call] } (.advance 0 now) =
      some { shared := g', threads := [call'] } := Threads.step_of_tick rfl h

/-- The shared data after the sequential operation. -/
def afterCheck (g : CheckShared) (key : ReplayKey) (seq : UInt16) (now : Instant) : CheckShared :=
  let (result, cache) := g.cache.checkAndUpdate key seq now
  if result = .allowed then { (g.note key seq) with cache } else { g with cache }

/-- **A check that runs alone** does in a few steps what the sequential operation does. -/
theorem run_alone (shard : ReplayKey → ℕ) (g : CheckShared) (key : ReplayKey) (seq : UInt16)
    (now : Instant) :
    ∃ k, Runs.run (CheckState.step shard) { shared := g, threads := [start (key, seq)] }
        (List.replicate k (.advance 0 now)) =
      some
        { shared := afterCheck g key seq now
          threads := [(start (key, seq)).goto
            (.returned (g.cache.checkAndUpdate key seq now).1)] } := by
  unfold afterCheck ReplayCache.checkAndUpdate
  have hstart : ∀ phase, tick shard { shared := g, threads := [start (key, seq)] }
      (start (key, seq)) now = some (g, (start (key, seq)).goto phase) →
      CheckState.step shard { shared := g, threads := [start (key, seq)] } (.advance 0 now) =
        some { shared := g, threads := [(start (key, seq)).goto phase] } :=
    fun phase h => step_alone h
  cases hentry : g.cache.entries.get? key with
  | some entry =>
      dsimp only
      by_cases hle : seq ≤ entry.lastSeq
      · refine ⟨1, ?_⟩
        have h₁ := hstart (.returned .rejected) (by simp [tick, start, hentry, hle])
        rw [if_pos hle]
        exact (Runs.run_cons_eq_some_iff _).2 ⟨_, h₁, rfl⟩
      · refine ⟨2, ?_⟩
        have h₁ := hstart .loaded (by simp [tick, start, hentry, hle])
        rw [if_neg hle]
        refine (Runs.run_cons_eq_some_iff _).2 ⟨_, h₁, (Runs.run_cons_eq_some_iff _).2 ⟨_, ?_, rfl⟩⟩
        refine step_alone ?_
        simp [tick, start, goto, hentry, CheckShared.put, CheckShared.note]
  | none =>
      dsimp only
      have h₁ := hstart .missed (by simp [tick, start, hentry])
      by_cases hfull : g.cache.entries.len ≥ replayCacheMaxCapacity
      · refine ⟨2, ?_⟩
        rw [if_pos hfull]
        refine (Runs.run_cons_eq_some_iff _).2 ⟨_, h₁, (Runs.run_cons_eq_some_iff _).2 ⟨_, ?_, rfl⟩⟩
        refine step_alone ?_
        simp [tick, start, goto, hfull]
      · refine ⟨3, ?_⟩
        rw [if_neg hfull, FiniteMap.insertFetch, hentry]
        have h₂ : CheckState.step shard
            { shared := g, threads := [(start (key, seq)).goto .missed] } (.advance 0 now) =
              some { shared := g, threads := [(start (key, seq)).goto .counted] } :=
          step_alone (by simp [tick, start, goto, hfull])
        refine (Runs.run_cons_eq_some_iff _).2 ⟨_, h₁, (Runs.run_cons_eq_some_iff _).2
          ⟨_, h₂, (Runs.run_cons_eq_some_iff _).2 ⟨_, ?_, rfl⟩⟩⟩
        refine step_alone ?_
        simp [tick, start, goto, shardHeld, hentry, CheckShared.put, CheckShared.note]

end CheckCall

end Bind19
