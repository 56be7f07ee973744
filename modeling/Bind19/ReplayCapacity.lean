/-
**The capacity of the replay cache under concurrent checks.**

A check of a source that is not on record reads the size of the cache in one step and inserts an
entry in another.  Between the two, other checks may insert, so what the size test has found need
not be true any more when the insertion happens.  This module counts the entries along a run: one is
added exactly by an insertion under a key that the map does not have, and a re-insertion is never
one of these.  The capacity is therefore kept as long as every insertion of a new source would still
pass the size test, and it is exceeded in all other runs.

Main definitions:

* `Bind19.CheckCall.growth` — the number of entries that the next step of a check adds;
* `Bind19.CheckState.roomAtInsertion` — an insertion of a new source would still pass the size test;
* `Bind19.CheckState.DisplacedKnown` — the invariant: a displaced entry belongs to a source on
  record.

Main results:

* `Bind19.CheckCall.len_of_tick` — the size of the cache after a step;
* `Bind19.CheckState.len_le_step_iff` — which steps keep the capacity;
* `Bind19.CheckState.run_len_le_iff` — **which runs keep the capacity**.
-/

import Bind19.ReplayRace
import Bind19.ReplayTenants

set_option relaxedAutoImplicit false
set_option autoImplicit false

namespace Bind19

variable {shard : ReplayKey → ℕ}

/-! ### The size of the cache -/

theorem CheckShared.len_put (g : CheckShared) (key : ReplayKey) (entry : ReplayEntry) :
    (g.put key entry).cache.len =
      g.cache.len + if (g.cache.entries.get? key).isSome then 0 else 1 := by
  rw [put, ReplayCache.len, FiniteMap.len_insert, ReplayCache.len]
  split <;> rfl

namespace CheckCall

variable {s : CheckState} {call call' : CheckCall} {now : Instant} {g : CheckShared}

/-- The number of entries that the next step of a check adds: one for an insertion or a re-insertion
under a key that the map does not have. -/
def growth (g : CheckShared) (call : CheckCall) : ℕ :=
  match call.phase with
  | .counted | .displaced _ => if (g.cache.entries.get? call.key).isSome then 0 else 1
  | _ => 0

theorem growth_of_phase {phase : CheckPhase} (hphase : call.phase = phase)
    (hcounted : phase ≠ .counted) (hdisplaced : ∀ oldEntry, phase ≠ .displaced oldEntry) :
    call.growth g = 0 := by
  unfold growth
  rw [hphase]
  cases phase with
  | counted => exact absurd rfl hcounted
  | displaced oldEntry => exact absurd rfl (hdisplaced oldEntry)
  | _ => rfl

theorem growth_of_counted (hphase : call.phase = .counted) :
    call.growth g = if (g.cache.entries.get? call.key).isSome then 0 else 1 := by
  rw [growth, hphase]

theorem growth_of_displaced {oldEntry : ReplayEntry} (hphase : call.phase = .displaced oldEntry) :
    call.growth g = if (g.cache.entries.get? call.key).isSome then 0 else 1 := by
  rw [growth, hphase]

/-- **The size of the cache after a step.** -/
theorem len_of_tick (h : tick shard s call now = some (g, call')) :
    g.cache.len = s.shared.cache.len + call.growth s.shared := by
  unfold tick at h
  dsimp only at h
  cases hphase : call.phase with
  | started =>
      rw [hphase] at h
      dsimp only at h
      rw [growth_of_phase hphase (by simp) (by simp)]
      split at h
      · split at h <;> cases h <;> rfl
      · cases h
        rfl
  | loaded =>
      rw [hphase] at h
      dsimp only at h
      rw [growth_of_phase hphase (by simp) (by simp)]
      cases hentry : s.shared.cache.entries.get? call.key with
      | none =>
          rw [hentry] at h
          cases h
      | some entry =>
          -- the entry it refers to is in the map, so the store adds none
          rw [hentry] at h
          cases h
          change (s.shared.put call.key _).cache.len = _
          rw [CheckShared.len_put, hentry]
          rfl
  | missed =>
      rw [hphase] at h
      dsimp only at h
      rw [growth_of_phase hphase (by simp) (by simp)]
      split at h <;> cases h <;> rfl
  | counted =>
      rw [hphase] at h
      dsimp only at h
      rw [growth_of_counted hphase]
      split at h
      · cases h
      · have hput := CheckShared.len_put s.shared call.key (ReplayEntry.new call.seq now)
        split at h
        · cases h
          exact hput
        · split at h <;> cases h <;> exact hput
  | displaced oldEntry =>
      rw [hphase] at h
      dsimp only at h
      rw [growth_of_displaced hphase]
      split at h
      · cases h
      · cases h
        exact CheckShared.len_put s.shared call.key oldEntry
  | returned result =>
      rw [hphase] at h
      cases h

end CheckCall

/-! ### A displaced entry belongs to a source on record -/

/-- A source on record stays on record. -/
theorem CheckStep.known {g g' : CheckShared} {call call' : CheckCall} {key : ReplayKey}
    (h : CheckStep g call g' call') (hkey : g.lastSeq key ≠ none) : g'.lastSeq key ≠ none := by
  by_cases heq : key = call.key
  · subst heq
    cases h with
    | look phase => exact hkey
    | store entry | insert entry | displace entry | restore entry => simp
  · rw [(h.frame.2 key heq).1]
    exact hkey

namespace CheckState

variable {s s' : CheckState} {a : CheckAction}

/-- A check that has displaced an entry has put another in its place. -/
def DisplacedKnown (s : CheckState) : Prop :=
  ∀ c ∈ s.threads, c.displacedSeq ≠ none → s.shared.lastSeq c.key ≠ none

theorem displacedKnown_begin (cache : ReplayCache) : (CheckState.begin cache).DisplacedKnown := by
  intro c hc
  cases hc

theorem DisplacedKnown.step (h : s.DisplacedKnown)
    (hstep : CheckState.step shard s a = some s') : s'.DisplacedKnown := by
  intro c hc hdisplaced
  rcases Threads.step_cases hstep with
    ⟨request, rfl, rfl⟩ | ⟨i, now, call, g, call', rfl, hi, htick, rfl⟩
  · rcases List.mem_append.1 hc with hc | hc
    · exact h c hc hdisplaced
    · rw [List.mem_singleton.1 hc] at hdisplaced
      exact absurd rfl hdisplaced
  · have hcase := CheckCall.tick_cases htick
    rcases Threads.eq_or_mem_of_mem_set hc with rfl | hc
    · cases hcase with
      | look phase hfrom hto => exact absurd hto hdisplaced
      | displace entry => exact Option.ne_none_iff_exists'.2 ⟨_, CheckShared.lastSeq_put_self ..⟩
      | store entry | insert entry | restore entry => exact absurd rfl hdisplaced
    · exact hcase.known (h c hc hdisplaced)

end CheckState

/-! ### Which steps keep the capacity -/

/-- An insertion of a new source would still pass the size test. -/
def CheckCall.roomAtInsertion (g : CheckShared) (call : CheckCall) : Bool :=
  match call.phase with
  | .counted =>
      (g.cache.entries.get? call.key).isSome || !(g.cache.entries.len ≥ replayCacheMaxCapacity)
  | _ => true

namespace CheckState

variable {s s' t : CheckState} {a : CheckAction} {i : ℕ} {now : Instant} {call : CheckCall}

/-- If the action is an insertion of a new source, it would still pass the size test. -/
def roomAtInsertion (s : CheckState) : CheckAction → Bool
  | .spawn _ => true
  | .advance i _ => (s.threads[i]?.map (CheckCall.roomAtInsertion s.shared)).getD true

theorem roomAtInsertion_call (hi : s.threads[i]? = some call) :
    s.roomAtInsertion (.advance i now) = call.roomAtInsertion s.shared := by
  rw [roomAtInsertion, hi]
  rfl

/-- Among the checks whose displaced entries belong to sources on record, only an insertion adds an
entry. -/
theorem DisplacedKnown.len_growth_le_iff (h : s.DisplacedKnown) (hcall : call ∈ s.threads) :
    s.shared.cache.len + call.growth s.shared ≤ replayCacheMaxCapacity ↔
      s.shared.cache.len ≤ replayCacheMaxCapacity ∧ call.roomAtInsertion s.shared = true := by
  have hquiet (hgrowth : call.growth s.shared = 0) (hroom : call.roomAtInsertion s.shared = true) :
      s.shared.cache.len + call.growth s.shared ≤ replayCacheMaxCapacity ↔
        s.shared.cache.len ≤ replayCacheMaxCapacity ∧ call.roomAtInsertion s.shared = true := by
    rw [hgrowth, hroom]
    exact (and_iff_left rfl).symm
  cases hphase : call.phase with
  | counted =>
      rw [CheckCall.growth_of_counted hphase, CheckCall.roomAtInsertion, hphase]
      cases hentry : s.shared.cache.entries.get? call.key with
      | some entry => simp
      | none =>
          have hlen : s.shared.cache.len = s.shared.cache.entries.len := rfl
          simp only [Option.isSome_none, Bool.false_eq_true, if_false, Bool.false_or,
            Bool.not_eq_true', decide_eq_false_iff_not, ge_iff_le, Nat.not_le, ← hlen]
          omega
  | displaced oldEntry =>
      -- the entry it puts back takes the place of one that is there
      have hknown : s.shared.lastSeq call.key ≠ none :=
        h call hcall (by rw [CheckCall.displacedSeq, hphase]; simp)
      have hsome : (s.shared.cache.entries.get? call.key).isSome = true := by
        rw [← Option.isSome_map]
        exact Option.ne_none_iff_isSome.1 hknown
      refine hquiet ?_ ?_
      · rw [CheckCall.growth_of_displaced hphase, if_pos hsome]
      · rw [CheckCall.roomAtInsertion, hphase]
  | started | loaded | missed | returned result =>
      refine hquiet (CheckCall.growth_of_phase hphase (by simp) (by simp)) ?_
      rw [CheckCall.roomAtInsertion, hphase]

/-- **Which steps keep the capacity.** -/
theorem len_le_step_iff (h : s.DisplacedKnown) (hstep : CheckState.step shard s a = some s') :
    s'.shared.cache.len ≤ replayCacheMaxCapacity ↔
      s.shared.cache.len ≤ replayCacheMaxCapacity ∧ s.roomAtInsertion a = true := by
  rcases Threads.step_cases hstep with
    ⟨request, rfl, rfl⟩ | ⟨i, now, call, g, call', rfl, hi, htick, rfl⟩
  · exact (and_iff_left rfl).symm
  · rw [CheckCall.len_of_tick htick, roomAtInsertion_call hi]
    exact h.len_growth_le_iff (List.mem_of_getElem? hi)

/-! ### Runs -/

/-- Every insertion of a new source in the run would still pass the size test. -/
abbrev RoomAtInsertions (shard : ReplayKey → ℕ) (s : CheckState) (as : List CheckAction) : Prop :=
  Runs.Guarded (CheckState.step shard) (fun s a => s.roomAtInsertion a = true) s as

/-- At the end of a run the capacity is kept exactly if it was kept at the beginning and every
insertion of a new source would still have passed the size test. -/
theorem len_le_iff {as : List CheckAction} (h : s.DisplacedKnown)
    (hrun : Runs.run (CheckState.step shard) s as = some t) :
    t.shared.cache.len ≤ replayCacheMaxCapacity ↔
      s.shared.cache.len ≤ replayCacheMaxCapacity ∧ RoomAtInsertions shard s as :=
  Runs.iff_guarded (I := DisplacedKnown)
    (P := fun u => u.shared.cache.len ≤ replayCacheMaxCapacity)
    (fun _ _ _ hI hstep => hI.step hstep) (fun _ _ _ hI hstep => len_le_step_iff hI hstep) h hrun

/-- **Which runs keep the capacity.**  Take any number of checks on a cache that holds no more
entries than its capacity, and any order of their atomic steps.  The capacity is kept in every state
of the run exactly if every insertion of a new source would still pass the size test that the check
has passed before. -/
theorem run_len_le_iff (shard : ReplayKey → ℕ) (cache : ReplayCache)
    (hcache : cache.len ≤ replayCacheMaxCapacity) (actions : List CheckAction) (t : CheckState)
    (hrun : Runs.run (CheckState.step shard) (CheckState.begin cache) actions = some t) :
    (∀ as s, as <+: actions →
        Runs.run (CheckState.step shard) (CheckState.begin cache) as = some s →
        s.shared.cache.len ≤ replayCacheMaxCapacity) ↔
      RoomAtInsertions shard (CheckState.begin cache) actions := by
  constructor
  · intro h
    exact ((len_le_iff (displacedKnown_begin cache) hrun).1
      (h actions t List.prefix_rfl hrun)).2
  · rintro hroom as s ⟨bs, rfl⟩ hs
    have has := ((Runs.guarded_append _ _).1 hroom).1
    exact (len_le_iff (displacedKnown_begin cache) hs).2 ⟨hcache, has⟩

/-! ### Two registrations at once -/

/-- Two new sources of a tenant. -/
def firstKey : ReplayKey := { tenantId := 1, sourceId := 7 }

def secondKey : ReplayKey := { tenantId := 1, sourceId := 8 }

/-- Two checks of new sources, each of which reads the size before the other inserts. -/
def twoRegistrations : List CheckAction :=
  [.spawn (firstKey, 1), .spawn (secondKey, 1), .advance 0 0, .advance 1 0, .advance 0 0,
    .advance 1 0, .advance 0 0, .advance 1 0]

theorem run_twoRegistrations {cache : ReplayCache} (hfirst : cache.lastSeq firstKey = none)
    (hsecond : cache.lastSeq secondKey = none) (hroom : cache.len < replayCacheMaxCapacity) :
    (Runs.run (CheckState.step shard) (CheckState.begin cache) twoRegistrations).map
      (fun s => s.shared.cache.len) = some (cache.len + 2) := by
  have hne : secondKey ≠ firstKey := by decide
  have hfirst : cache.entries.get? firstKey = none := Option.map_eq_none_iff.1 hfirst
  have hsecond : cache.entries.get? secondKey = none := Option.map_eq_none_iff.1 hsecond
  have hroom : ¬replayCacheMaxCapacity ≤ cache.entries.len := Nat.not_le.2 hroom
  simp [twoRegistrations, Runs.run, CheckState.step, Threads.step, CheckState.begin,
    CheckCall.start, CheckCall.tick, CheckCall.goto, CheckCall.shardHeld, hfirst, hsecond, hroom,
    CheckShared.put, CheckShared.note, FiniteMap.get?_insert, FiniteMap.len_insert, hne,
    ReplayCache.len]

/-- The state after both registrations on a new cache. -/
def twoRegistered : CheckState :=
  (Runs.run (CheckState.step fun _ => 0) (CheckState.begin ReplayCache.new) twoRegistrations).get
    (by decide)

/-- On a new cache there is room for both. -/
theorem run_len_le_iff_twoRegistered :
    (∀ as s, as <+: twoRegistrations →
        Runs.run (CheckState.step fun _ => 0) (CheckState.begin ReplayCache.new) as = some s →
        s.shared.cache.len ≤ replayCacheMaxCapacity) ↔
      RoomAtInsertions (fun _ => 0) (CheckState.begin ReplayCache.new) twoRegistrations :=
  run_len_le_iff (fun _ => 0) ReplayCache.new (by decide) twoRegistrations twoRegistered
    (Option.some_get _).symm

/-- A cache in which another tenant has left room for one more source. -/
def almostFull : ReplayCache :=
  Transcript.final ReplayCache.check (ReplayCache.withTtl replayCacheDefaultTtl)
    (ReplayCache.crowd (replayCacheMaxCapacity - 1))

/-- On the last place both checks are accepted, and the cache holds one entry too many. -/
theorem run_almostFull :
    almostFull.len ≤ replayCacheMaxCapacity ∧
      (Runs.run (CheckState.step fun _ => 0) (CheckState.begin almostFull) twoRegistrations).map
        (fun s => s.shared.cache.len) = some (replayCacheMaxCapacity + 1) := by
  obtain ⟨hlen, hknown⟩ :=
    ReplayCache.final_crowd replayCacheDefaultTtl (Nat.sub_le replayCacheMaxCapacity 1)
  have hlen : almostFull.len = replayCacheMaxCapacity - 1 := hlen
  have hpos : 0 < replayCacheMaxCapacity := by decide
  have hnone (key : ReplayKey) (hkey : key.tenantId ≠ 2) : almostFull.lastSeq key = none := by
    by_contra hsome
    exact hkey (hknown key (Option.ne_none_iff_isSome.1 hsome)).1
  refine ⟨by omega, ?_⟩
  rw [run_twoRegistrations (hnone firstKey (by decide)) (hnone secondKey (by decide)) (by omega),
    hlen]
  rfl

end CheckState

end Bind19
