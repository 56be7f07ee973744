/-
**When concurrent calls can be told from sequential ones.**

The replay cache is not linearizable.  Two checks of the same source can overtake each other, and a
check of a new source can insert its entry on a place that is gone by then.  This module shows that
there is nothing else.  Take a run in which a check of a source begins only when no other check of
that source is in progress, and in which every insertion still finds room.  Whatever the
interleaving of the checks with each other, with removals and with clean-ups, every check and every
removal gets the answer of the sequential operation at some moment between its call and its return,
and the cache afterwards is the one that the sequential operations leave.  Only the count that a
clean-up returns is not sequential: it is formed of two readings of the size, and other calls come
between them.

Main definitions:

* `Bind19.ReplayCache.serve` — the sequential machine;
* `Bind19.CacheCall.outcome` — what a call has come to;
* `Bind19.CacheState.orderly` — a step that keeps the condition;
* `Bind19.CacheState.Exclusive` — the invariant.

Main results:

* `Bind19.CacheState.Exclusive.step` — what one step preserves;
* `Bind19.CacheState.Exclusive.explained` — every step is explained by the sequential machine;
* `Bind19.CacheState.run_linearized` — **concurrent calls are sequential calls in the order in which
  they take effect**.
-/

import Bind19.Linearization
import Bind19.ReplayProgress

set_option relaxedAutoImplicit false
set_option autoImplicit false

namespace Bind19

variable {shard : ReplayKey → ℕ}

/-! ### The sequential machine -/

/-- What a call comes to when it takes effect.  A clean-up takes effect when it drops the expired
entries; the count that it returns is formed later, and is no part of this. -/
inductive CacheAnswer
  | checked (result : ReplayCheckResult)
  | removed (found : Bool)
  | cleaned
  deriving DecidableEq

/-- One call after another, each with the clock readings that it makes. -/
def ReplayCache.serve (cache : ReplayCache) :
    CacheRequest × (ReplayKey → Instant) → CacheAnswer × ReplayCache
  | (.checkAndUpdate key seq, clock) =>
      let (result, cache) := cache.checkAndUpdate key seq (clock key)
      (.checked result, cache)
  | (.remove key, _) =>
      let (found, cache) := cache.remove key
      (.removed found, cache)
  | (.cleanupExpired, clock) => (.cleaned, (cache.cleanupExpired clock).2)

namespace CacheCall

/-- The call that was made. -/
def request : CacheCall → CacheRequest
  | .check c => .checkAndUpdate c.key c.seq
  | .remove key _ => .remove key
  | .cleanup _ => .cleanupExpired

/-- What the call has come to.  A clean-up has taken effect when it has dropped the expired
entries. -/
def outcome : CacheCall → Option CacheAnswer
  | .check c =>
      match c.phase with
      | .returned result => some (.checked result)
      | _ => none
  | .remove _ found => found.map .removed
  | .cleanup (.retained _) => some .cleaned
  | .cleanup (.returned _) => some .cleaned
  | .cleanup _ => none

theorem outcome_start (request : CacheRequest) : (start request).outcome = none := by
  cases request <;> rfl

/-- A check with an outcome has returned. -/
theorem outcome_check_eq_none {c : CheckCall} (h : c.isReturned = false) :
    (check c).outcome = none := by
  rw [outcome]
  rw [CheckCall.isReturned] at h
  cases hphase : c.phase <;> simp_all

/-- The source of a check in progress. -/
def source : CacheCall → Option ReplayKey
  | .check c => if c.isReturned then none else some c.key
  | _ => none

theorem source_check_eq_some_iff {c : CheckCall} {key : ReplayKey} :
    (check c).source = some key ↔ c.isReturned = false ∧ c.key = key := by
  rw [source]
  cases c.isReturned with
  | true => simp
  | false => simp

end CacheCall

/-! ### The invariant -/

/-- What the check has found in the cache is still so. -/
def CheckCall.UpToDate (g : CheckShared) (call : CheckCall) : Prop :=
  match call.phase with
  | .started => True
  | .loaded => ∃ entry, g.cache.entries.get? call.key = some entry ∧ entry.lastSeq < call.seq
  | .missed => g.cache.entries.get? call.key = none
  | .counted => g.cache.entries.get? call.key = none
  | .displaced _ => False
  | .returned _ => True

theorem CheckCall.UpToDate.congr {g g' : CheckShared} {call : CheckCall} (h : call.UpToDate g)
    (hget : g'.cache.entries.get? call.key = g.cache.entries.get? call.key) :
    call.UpToDate g' := by
  unfold CheckCall.UpToDate at *
  rw [hget]
  exact h

theorem CheckCall.upToDate_of_isReturned {g : CheckShared} {call : CheckCall}
    (h : call.isReturned = true) : call.UpToDate g := by
  unfold CheckCall.UpToDate
  rw [CheckCall.isReturned] at h
  cases hphase : call.phase <;> simp_all

/-- Entries are dropped, but not the one that the check refers to. -/
theorem CheckCall.UpToDate.drop {g g' : CheckShared} {call : CheckCall} (h : call.UpToDate g)
    (hloaded : call.phase = .loaded →
      g'.cache.entries.get? call.key = g.cache.entries.get? call.key)
    (hnone : g.cache.entries.get? call.key = none → g'.cache.entries.get? call.key = none) :
    call.UpToDate g' := by
  unfold CheckCall.UpToDate at *
  cases hphase : call.phase with
  | started | returned result => trivial
  | loaded =>
      rw [hphase] at h
      rw [hloaded hphase]
      exact h
  | missed | counted =>
      rw [hphase] at h
      exact hnone h
  | displaced oldEntry =>
      rw [hphase] at h
      cases h

/-- What a step of a check leaves it with. -/
theorem CheckMove.upToDate {s : CheckState} {c c' : CheckCall} {now : Instant} {g : CheckShared}
    (h : CheckMove shard s c now g c') (hc : c.UpToDate s.shared) : c'.UpToDate g := by
  unfold CheckCall.UpToDate at hc
  cases h with
  | load entry hfrom hentry hlt => exact ⟨entry, hentry, hlt⟩
  | miss hfrom hentry => exact hentry
  | count hfrom hroom =>
      rw [hfrom] at hc
      exact hc
  | displace oldEntry hfrom hfree hentry hle =>
      rw [hfrom, hentry] at hc
      cases hc
  | reject | store | full | register | replace | restore => trivial

/-- A check that takes a step has not returned. -/
theorem CheckMove.isReturned_eq_false {s : CheckState} {c c' : CheckCall} {now : Instant}
    {g : CheckShared} (h : CheckMove shard s c now g c') : c.isReturned = false := by
  rw [CheckCall.isReturned]
  cases h <;> simp [*]

/-- **A step of a check is the sequential operation, or leaves the cache alone**, if what the check
has found in the cache is still so and it finds room. -/
theorem CheckMove.serves {s : CheckState} {c c' : CheckCall} {now : Instant} {g : CheckShared}
    (h : CheckMove shard s c now g c') (hc : c.UpToDate s.shared)
    (hroom : c.roomAtInsertion s.shared = true) :
    (c'.isReturned = false ∧ g.cache = s.shared.cache) ∨
      ∃ result, c'.phase = .returned result ∧
        s.shared.cache.checkAndUpdate c.key c.seq now = (result, g.cache) := by
  unfold CheckCall.UpToDate at hc
  cases h with
  | load entry hfrom hentry hlt => exact Or.inl ⟨rfl, rfl⟩
  | miss hfrom hentry => exact Or.inl ⟨rfl, rfl⟩
  | count hfrom hroom => exact Or.inl ⟨rfl, rfl⟩
  | reject entry hfrom hentry hle =>
      refine Or.inr ⟨_, rfl, ?_⟩
      simp [ReplayCache.checkAndUpdate, hentry, hle]
  | store entry hfrom hentry =>
      rw [hfrom] at hc
      obtain ⟨entry', hentry', hlt⟩ := hc
      obtain rfl := Option.some.inj (hentry.symm.trans hentry')
      refine Or.inr ⟨_, rfl, ?_⟩
      simp [ReplayCache.checkAndUpdate, hentry, UInt16.not_le.2 hlt, CheckShared.put,
        CheckShared.note]
  | full hfrom hfull =>
      rw [hfrom] at hc
      have hentry : s.shared.cache.entries.get? c.key = none := hc
      refine Or.inr ⟨_, rfl, ?_⟩
      simp [ReplayCache.checkAndUpdate, hentry, hfull]
  | register hfrom hfree hentry =>
      rw [CheckCall.roomAtInsertion, hfrom] at hroom
      have hroom : ¬ replayCacheMaxCapacity ≤ s.shared.cache.entries.len := by
        simpa [hentry] using hroom
      refine Or.inr ⟨_, rfl, ?_⟩
      simp [ReplayCache.checkAndUpdate, hentry, hroom, FiniteMap.insertFetch, CheckShared.put,
        CheckShared.note]
  | replace oldEntry hfrom hfree hentry hlt | displace oldEntry hfrom hfree hentry hle =>
      rw [hfrom] at hc
      have hnone : s.shared.cache.entries.get? c.key = none := hc
      exact absurd (hentry.symm.trans hnone) (by simp)
  | restore oldEntry hfrom hfree =>
      rw [hfrom] at hc
      cases hc

namespace CacheState

variable {s s' : CacheState} {a : CacheAction}

/-- No check of the source is in progress. -/
def noneInProgress (s : CacheState) (key : ReplayKey) : Bool :=
  s.threads.all fun call => call.source != some key

/-- A check begins only when no other check of its source is in progress, and an insertion still
finds room. -/
def orderly (s : CacheState) : CacheAction → Bool
  | .spawn (.checkAndUpdate key _) => s.noneInProgress key
  | .spawn _ => true
  | .advance i _ =>
      match s.threads[i]? with
      | some (.check c) => c.roomAtInsertion s.shared
      | _ => true

/-- At most one check of each source is in progress, and what it has found in the cache is still
so. -/
structure Exclusive (s : CacheState) : Prop where
  alone : Threads.Alone CacheCall.source s.threads
  upToDate : ∀ c, .check c ∈ s.threads → c.UpToDate s.shared

theorem exclusive_begin (cache : ReplayCache) : (CacheState.begin cache).Exclusive where
  alone := Threads.alone_nil
  upToDate c hc := by cases hc

/-- A step that does not touch the threads of the checks. -/
theorem Exclusive.of_not_check (h : s.Exclusive) {i : ℕ} {call call' : CacheCall}
    {g : CheckShared} (hi : s.threads[i]? = some call) (hcall' : ∀ c, call' ≠ .check c)
    (hget : ∀ c, .check c ∈ s.threads → c.UpToDate g) :
    Exclusive { shared := g, threads := s.threads.set i call' } where
  alone := h.alone.set hi fun key hkey => by
    cases call' with
    | check c => exact absurd rfl (hcall' c)
    | remove | cleanup => cases hkey
  upToDate c hc := by
    rcases Threads.eq_or_mem_of_mem_set hc with heq | hmem
    · exact absurd heq.symm (hcall' c)
    · exact hget c hmem

/-- A step of a check. -/
theorem Exclusive.move (h : s.Exclusive) {i : ℕ} {c c' : CheckCall} {g : CheckShared}
    {now : Instant} (hi : s.threads[i]? = some (.check c))
    (hmove : CheckMove shard s.checks c now g c') :
    Exclusive { shared := g, threads := s.threads.set i (.check c') } := by
  have hsource : (CacheCall.check c).source = some c.key :=
    CacheCall.source_check_eq_some_iff.2 ⟨hmove.isReturned_eq_false, rfl⟩
  refine ⟨h.alone.set hi fun key hkey => ?_, fun d hd => ?_⟩
  · obtain ⟨-, rfl⟩ := CacheCall.source_check_eq_some_iff.1 hkey
    rw [hsource]
    exact congrArg (some ∘ Prod.fst) hmove.request_eq.symm
  · obtain ⟨l, hl⟩ := List.mem_iff_getElem?.1 hd
    by_cases hil : i = l
    · subst hil
      obtain ⟨hlt, -⟩ := List.getElem?_eq_some_iff.1 hi
      cases Option.some.inj ((List.getElem?_set_self hlt).symm.trans hl)
      exact hmove.upToDate (h.upToDate c (List.mem_of_getElem? hi))
    · dsimp only at hl
      rw [List.getElem?_set_ne hil] at hl
      have hold := h.upToDate d (List.mem_of_getElem? hl)
      cases hreturned : d.isReturned with
      | true => exact CheckCall.upToDate_of_isReturned hreturned
      | false =>
          -- it is a check of another source
          have hne : d.key ≠ c.key := fun hkey =>
            h.alone.ne hil hi hl hsource (CacheCall.source_check_eq_some_iff.2 ⟨hreturned, hkey⟩)
          exact hold.congr (hmove.get?_of_ne hne)

/-- A call begins. -/
theorem Exclusive.spawn (h : s.Exclusive) {request : CacheRequest}
    (horderly : s.orderly (.spawn request) = true) :
    Exclusive { shared := s.shared, threads := s.threads ++ [CacheCall.start request] } := by
  refine ⟨h.alone.append fun call hcall key hkey hnew => ?_, fun c hc => ?_⟩
  · cases request with
    | checkAndUpdate key' seq =>
        -- a new check has no other of its source beside it
        cases hnew
        have hnone : (call.source != some key') = true := List.all_eq_true.1 horderly call hcall
        rw [hkey] at hnone
        exact absurd rfl (bne_iff_ne.1 hnone)
    | remove | cleanupExpired => cases hnew
  · rcases List.mem_append.1 hc with hc | hc
    · exact h.upToDate c hc
    · cases request with
      | checkAndUpdate key seq =>
          cases List.mem_singleton.1 hc
          trivial
      | remove | cleanupExpired => cases List.mem_singleton.1 hc

/-- **What one step preserves**, if it is orderly. -/
theorem Exclusive.step (h : s.Exclusive) (horderly : s.orderly a = true)
    (hstep : CacheState.step shard s a = some s') : s'.Exclusive := by
  rcases Threads.step_cases hstep with
    ⟨request, rfl, rfl⟩ | ⟨i, clock, call, g, call', rfl, hi, htick, rfl⟩
  · exact h.spawn horderly
  · cases call with
    | check c =>
        obtain ⟨c', hmove, rfl⟩ := CacheCall.tick_check_eq_some_iff.1 htick
        exact h.move hi hmove
    | remove key found =>
        cases CacheCall.tick_cases htick with
        | remove =>
            have hfree := CacheCall.shardHeld_of_tick_remove htick
            refine h.of_not_check hi (fun c => by simp) fun c hc => (h.upToDate c hc).drop ?_ ?_
            · intro hloaded
              have hne := ne_of_not_shardHeld hfree hc hloaded
              exact (FiniteMap.get?_remove _ _ _).trans (if_neg hne)
            · intro hnone
              refine (FiniteMap.get?_remove _ _ _).trans ?_
              rw [hnone, ite_self]
    | cleanup phase =>
        cases CacheCall.tick_cases htick with
        | count | recount =>
            exact h.of_not_check hi (fun c => by simp) fun c hc => h.upToDate c hc
        | retain before =>
            have hfree := CacheCall.anyHeld_of_tick_counted htick
            refine h.of_not_check hi (fun c => by simp) fun c hc => (h.upToDate c hc).drop ?_ ?_
            · intro hloaded
              have hnone := List.any_eq_false.1 hfree c (mem_checks.2 hc)
              rw [hloaded] at hnone
              simp at hnone
            · intro hnone
              refine (FiniteMap.get?_retain _ _ _).trans ?_
              rw [hnone]
              rfl

/-! ### Every step is explained -/

/-- What is seen of the shared data is the cache. -/
abbrev Explained (s : CacheState) (call : CacheCall) (clock : ReplayKey → Instant)
    (g : CheckShared) (call' : CacheCall) : Prop :=
  Threads.Explained ReplayCache.serve CheckShared.cache CacheCall.outcome CacheCall.request
    (fun _ clock => clock) s call clock g call'

/-- The steps of a check are explained, if it has no other of its source beside it and finds
room. -/
theorem explained_move {c c' : CheckCall} {g : CheckShared} {clock : ReplayKey → Instant}
    (hc : c.UpToDate s.shared) (hroom : c.roomAtInsertion s.shared = true)
    (hmove : CheckMove shard s.checks c (clock c.key) g c') :
    Explained s (.check c) clock g (.check c') := by
  have hbusy : (CacheCall.check c).outcome = none :=
    CacheCall.outcome_check_eq_none hmove.isReturned_eq_false
  have hrequest : (CacheCall.check c').request = (CacheCall.check c).request := by
    obtain ⟨hkey, hseq⟩ := Prod.mk.inj hmove.request_eq
    rw [CacheCall.request, CacheCall.request, hkey, hseq]
  rcases hmove.serves hc hroom with ⟨hbusy', hcache⟩ | ⟨result, hphase, hcheck⟩
  · exact .of_quiet hrequest ((CacheCall.outcome_check_eq_none hbusy').trans hbusy.symm) hcache
  · have hcheck : s.shared.cache.checkAndUpdate c.key c.seq (clock c.key) = (result, g.cache) :=
      hcheck
    have hanswer : (CacheCall.check c').outcome = some (.checked result) := by
      rw [CacheCall.outcome, hphase]
    refine .of_settled hrequest hbusy hanswer ?_
    rw [ReplayCache.serve.eq_def]
    dsimp only [CacheCall.request]
    rw [hcheck]

/-- **Every step is explained.** -/
theorem Exclusive.explained (h : s.Exclusive) {i : ℕ} {call call' : CacheCall} {g : CheckShared}
    {clock : ReplayKey → Instant} (horderly : s.orderly (.advance i clock) = true)
    (hi : s.threads[i]? = some call)
    (htick : CacheCall.tick shard s call clock = some (g, call')) :
    Explained s call clock g call' := by
  cases call with
  | check c =>
      obtain ⟨c', hmove, rfl⟩ := CacheCall.tick_check_eq_some_iff.1 htick
      rw [orderly, hi] at horderly
      exact explained_move (h.upToDate c (List.mem_of_getElem? hi)) horderly hmove
  | remove key found =>
      cases CacheCall.tick_cases htick with
      | remove => exact .of_settled rfl rfl rfl rfl
  | cleanup phase =>
      cases CacheCall.tick_cases htick with
      | count => exact .of_quiet rfl rfl rfl
      | retain before => exact .of_settled rfl rfl rfl rfl
      | recount before => exact .of_quiet rfl rfl rfl

/-! ### Runs -/

/-- Every step of the run is orderly. -/
abbrev Orderly (shard : ReplayKey → ℕ) (s : CacheState) (as : List CacheAction) : Prop :=
  Runs.Guarded (CacheState.step shard) (fun s a => s.orderly a = true) s as

/-- The calls of a run in the order in which they take effect, each with its thread and with the
clock readings of that step. -/
abbrev effects (shard : ReplayKey → ℕ) (s : CacheState) (as : List CacheAction) :
    List (ℕ × CacheRequest × (ReplayKey → Instant)) :=
  Threads.effects CacheCall.start (CacheCall.tick shard) CacheCall.outcome CacheCall.request
    (fun _ clock => clock) s as

/-- The run from `s` to `t` is explained by sequential calls on the cache. -/
abbrev Linearized (s t : CacheState) (es : List (ℕ × CacheRequest × (ReplayKey → Instant))) :
    Prop :=
  Threads.Linearized ReplayCache.serve CheckShared.cache CacheCall.outcome CacheCall.request s t es

theorem linearized_of_run {cache : ReplayCache} {actions : List CacheAction} {t : CacheState}
    (horderly : Orderly shard (CacheState.begin cache) actions)
    (hrun : Runs.run (CacheState.step shard) (CacheState.begin cache) actions = some t) :
    Linearized (CacheState.begin cache) t (effects shard (CacheState.begin cache) actions) :=
  Threads.linearized_of_explained (P := Exclusive) CacheCall.outcome_start
    (fun _ _ _ h hguard hstep => h.step hguard hstep)
    (fun _ _ _ _ _ _ h hguard hi htick => h.explained hguard hi htick)
    (exclusive_begin cache) horderly hrun

/-- **Concurrent calls are sequential calls in the order in which they take effect.**  Take any run
of checks, removals and clean-ups on a replay cache in which a check begins only when no other check
of its source is in progress, and in which every insertion of a new source still finds room.  The
checks and removals have the answers, and the cache afterwards is the one, of the sequential
operations in the order in which the calls take effect, a clean-up when it drops the expired
entries; nothing is said of the count that it returns.  At every moment of the run the calls that
have taken effect are those that have come to an outcome, so the order keeps to that of calls one of
which returns before the other begins. -/
theorem run_linearized (shard : ReplayKey → ℕ) (cache : ReplayCache) (actions : List CacheAction)
    (t : CacheState) (horderly : Orderly shard (CacheState.begin cache) actions)
    (hrun : Runs.run (CacheState.step shard) (CacheState.begin cache) actions = some t) :
    Linearized (CacheState.begin cache) t (effects shard (CacheState.begin cache) actions) ∧
      ∀ as bs u, actions = as ++ bs →
        Runs.run (CacheState.step shard) (CacheState.begin cache) as = some u →
        effects shard (CacheState.begin cache) actions =
            effects shard (CacheState.begin cache) as ++ effects shard u bs ∧
          ∀ i, i ∈ (effects shard (CacheState.begin cache) as).map Prod.fst ↔
            (Threads.outcomeAt CacheCall.outcome u i).isSome = true := by
  refine ⟨linearized_of_run horderly hrun, ?_⟩
  rintro as bs u rfl hu
  have has := ((Runs.guarded_append _ _).1 horderly).1
  refine ⟨Threads.effects_append hu bs, fun i => ?_⟩
  rw [(linearized_of_run has hu).mem_iff i]
  exact and_iff_right rfl

/-- Two registrations, and a removal of one of the sources while they are under way. -/
def interleavedCalls : List CacheAction :=
  [.spawn (.checkAndUpdate CheckState.firstKey 1), .spawn (.checkAndUpdate CheckState.secondKey 1),
    .advance 0 fun _ => 0, .advance 1 fun _ => 0, .spawn (.remove CheckState.firstKey),
    .advance 0 fun _ => 0, .advance 2 fun _ => 0, .advance 1 fun _ => 0, .advance 1 fun _ => 0,
    .advance 0 fun _ => 0]

/-- The state afterwards. -/
def afterInterleavedCalls : CacheState :=
  (Runs.run (CacheState.step fun _ => 0) (CacheState.begin ReplayCache.new) interleavedCalls).get
    (by decide)

/-- The removal comes first, and the registrations in the other order than they began. -/
theorem run_linearized_interleavedCalls :
    Linearized (CacheState.begin ReplayCache.new) afterInterleavedCalls
      (effects (fun _ => 0) (CacheState.begin ReplayCache.new) interleavedCalls) :=
  (run_linearized (fun _ => 0) ReplayCache.new interleavedCalls afterInterleavedCalls (by decide)
    (Option.some_get _).symm).1

example : (effects (fun _ => 0) (CacheState.begin ReplayCache.new) interleavedCalls).map
    (fun e => (e.1, (Threads.outcomeAt CacheCall.outcome afterInterleavedCalls e.1))) =
      [(2, some (.removed false)), (1, some (.checked .allowed)),
        (0, some (.checked .allowed))] := by
  decide

end CacheState

end Bind19
