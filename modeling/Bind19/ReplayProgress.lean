/-
**Concurrent calls on the replay cache come to an end.**

A check that is about to insert, a removal and a clean-up wait while a check holds a reference to an
entry that they could take away from it.  A check takes no second lock while it holds a reference:
what it does next is its store, and with that it returns.  So nobody waits in a circle.  Every call
that has to wait waits for a check that can take its last step at once, no run has more than a few
steps for each call, and from every state that is reached the calls that are in progress can all
return.

Main definitions:

* `Bind19.CacheCall.stepsLeft` — the most steps that a call has left;
* `Bind19.CacheState.Referenced` — the invariant: an entry that a check refers to is in the map.

Main results:

* `Bind19.CacheState.Referenced.step` — what one step preserves;
* `Bind19.CacheState.Referenced.tick_or_held` — a call that has to wait waits for a reference;
* `Bind19.CacheState.run_progress` — **concurrent calls come to an end**.
-/

import Bind19.CleanupRace
import Bind19.Progress
import Bind19.ReplayMoves
import Mathlib.Algebra.Order.BigOperators.Group.List

set_option relaxedAutoImplicit false
set_option autoImplicit false

namespace Bind19

variable {shard : ReplayKey → ℕ}

/-! ### The steps that a call has left -/

/-- The most steps that a check has left. -/
def CheckCall.stepsLeft (call : CheckCall) : ℕ :=
  match call.phase with
  | .started => 4
  | .missed => 3
  | .counted => 2
  | .loaded => 1
  | .displaced _ => 1
  | .returned _ => 0

theorem CheckMove.stepsLeft_lt {s : CheckState} {call call' : CheckCall} {now : Instant}
    {g : CheckShared} (h : CheckMove shard s call now g call') :
    call'.stepsLeft < call.stepsLeft := by
  cases h <;> simp [CheckCall.stepsLeft, CheckCall.goto, *]

namespace CacheCall

variable {s : CacheState} {call call' : CacheCall} {clock : ReplayKey → Instant} {g : CheckShared}

/-- The most steps that a call has left. -/
def stepsLeft : CacheCall → ℕ
  | .check c => c.stepsLeft
  | .remove _ none => 1
  | .remove _ (some _) => 0
  | .cleanup .started => 3
  | .cleanup (.counted _) => 2
  | .cleanup (.retained _) => 1
  | .cleanup (.returned _) => 0

/-- Whether the call has an answer. -/
def isReturned : CacheCall → Bool
  | .check c => c.isReturned
  | .remove _ found => found.isSome
  | .cleanup (.returned _) => true
  | .cleanup _ => false

theorem stepsLeft_le (call : CacheCall) : call.stepsLeft ≤ 4 := by
  cases call with
  | check c =>
      rw [stepsLeft, CheckCall.stepsLeft]
      cases c.phase <;> simp
  | remove key found => cases found <;> simp [stepsLeft]
  | cleanup phase => cases phase <;> simp [stepsLeft]

theorem stepsLeft_eq_zero_iff : call.stepsLeft = 0 ↔ call.isReturned = true := by
  cases call with
  | check c =>
      rw [stepsLeft, isReturned, CheckCall.stepsLeft, CheckCall.isReturned]
      cases c.phase <;> simp
  | remove key found => cases found <;> simp [stepsLeft, isReturned]
  | cleanup phase => cases phase <;> simp [stepsLeft, isReturned]

/-- The steps of a check among other calls. -/
theorem tick_check_eq_some_iff {c : CheckCall} :
    tick shard s (.check c) clock = some (g, call') ↔
      ∃ c', CheckMove shard s.checks c (clock c.key) g c' ∧ call' = .check c' := by
  simp only [← CheckCall.tick_eq_some_iff]
  rw [tick]
  cases CheckCall.tick shard s.checks c (clock c.key) with
  | none => simp
  | some gc =>
      obtain ⟨g', c'⟩ := gc
      simp only [Option.some.injEq, Prod.mk.injEq]
      constructor
      · rintro ⟨rfl, rfl⟩
        exact ⟨c', ⟨rfl, rfl⟩, rfl⟩
      · rintro ⟨c'', ⟨rfl, rfl⟩, rfl⟩
        exact ⟨rfl, rfl⟩

/-- Every step makes the number smaller. -/
theorem stepsLeft_lt_of_tick (h : tick shard s call clock = some (g, call')) :
    call'.stepsLeft < call.stepsLeft := by
  cases call with
  | check c =>
      obtain ⟨c', hmove, rfl⟩ := tick_check_eq_some_iff.1 h
      exact hmove.stepsLeft_lt
  | remove key found =>
      cases tick_cases h with
      | remove => exact Nat.zero_lt_one
  | cleanup phase =>
      cases tick_cases h with
      | count => exact Nat.lt_succ_self 2
      | retain => exact Nat.lt_succ_self 1
      | recount => exact Nat.zero_lt_one

/-- A removal waits for the references into the shard of its source. -/
theorem shardHeld_of_tick_remove {key : ReplayKey}
    (h : tick shard s (.remove key none) clock = some (g, call')) :
    CheckCall.shardHeld shard s.checks key = false := by
  rw [tick] at h
  split at h
  · cases h
  · rename_i hfree
    exact Bool.not_eq_true _ ▸ hfree

/-- A clean-up waits for all references before it drops anything. -/
theorem anyHeld_of_tick_counted {before : ℕ}
    (h : tick shard s (.cleanup (.counted before)) clock = some (g, call')) :
    anyHeld s = false := by
  rw [tick] at h
  split at h
  · cases h
  · rename_i hfree
    exact Bool.not_eq_true _ ▸ hfree

end CacheCall

/-! ### References -/

namespace CacheState

variable {s s' : CacheState} {a : CacheAction} {clock : ReplayKey → Instant}

theorem mem_checks {c : CheckCall} : c ∈ s.checks.threads ↔ .check c ∈ s.threads := by
  rw [checks, List.mem_filterMap]
  constructor
  · rintro ⟨call, hcall, heq⟩
    cases call with
    | check c' => exact Option.some.inj heq ▸ hcall
    | remove | cleanup => cases heq
  · intro hc
    exact ⟨_, hc, rfl⟩

/-- An entry that a check refers to is in the map. -/
def Referenced (s : CacheState) : Prop :=
  ∀ c, .check c ∈ s.threads → c.phase = .loaded → s.shared.lastSeq c.key ≠ none

theorem referenced_begin (cache : ReplayCache) : (CacheState.begin cache).Referenced := by
  intro c hc
  cases hc

/-- Where no reference into a shard is held, none is held to its sources. -/
theorem ne_of_not_shardHeld {c : CheckCall} {key : ReplayKey}
    (hfree : CheckCall.shardHeld shard s.checks key = false) (hc : .check c ∈ s.threads)
    (hloaded : c.phase = .loaded) : c.key ≠ key := by
  rintro rfl
  have hnone := List.any_eq_false.1 hfree c (mem_checks.2 hc)
  rw [hloaded] at hnone
  simp at hnone

/-- **What one step preserves.** -/
theorem Referenced.step (h : s.Referenced) (hstep : CacheState.step shard s a = some s') :
    s'.Referenced := by
  intro c hc hloaded
  rcases Threads.step_cases hstep with
    ⟨request, rfl, rfl⟩ | ⟨i, clock, call, g, call', rfl, hi, htick, rfl⟩
  · rcases List.mem_append.1 hc with hc | hc
    · exact h c hc hloaded
    · -- a new check holds no reference
      cases request with
      | checkAndUpdate key seq =>
          cases List.mem_singleton.1 hc
          cases hloaded
      | remove | cleanupExpired => cases List.mem_singleton.1 hc
  · cases call with
    | check c₀ =>
        obtain ⟨c', hmove, rfl⟩ := CacheCall.tick_check_eq_some_iff.1 htick
        rcases Threads.eq_or_mem_of_mem_set hc with heq | hc
        · cases heq
          -- the reference was taken in this step
          cases hmove with
          | load entry hfrom hentry =>
              exact Option.ne_none_iff_exists'.2 ⟨_, ReplayCache.lastSeq_eq_some hentry⟩
          | _ => cases hloaded
        · exact hmove.known (h c hc hloaded)
    | remove key found =>
        rcases Threads.eq_or_mem_of_mem_set hc with rfl | hmem
        · cases CacheCall.tick_cases htick
        · have hlast := h c hmem hloaded
          cases CacheCall.tick_cases htick with
          | remove =>
              have hne := ne_of_not_shardHeld (CacheCall.shardHeld_of_tick_remove htick) hmem
                hloaded
              have hkeep := ReplayCache.lastSeq_remove s.shared.cache key c.key
              rw [if_neg hne] at hkeep
              exact fun hnone => hlast (hkeep.symm.trans hnone)
    | cleanup phase =>
        rcases Threads.eq_or_mem_of_mem_set hc with rfl | hmem
        · cases CacheCall.tick_cases htick
        · cases CacheCall.tick_cases htick with
          | retain before =>
              have hnone := List.any_eq_false.1 (CacheCall.anyHeld_of_tick_counted htick) c
                (mem_checks.2 hmem)
              rw [hloaded] at hnone
              simp at hnone
          | count | recount => exact h c hmem hloaded

/-! ### Waiting -/

/-- A check that holds a reference can take its last step. -/
theorem Referenced.tick_of_loaded (h : s.Referenced) {c : CheckCall} (hc : .check c ∈ s.threads)
    (hloaded : c.phase = .loaded) (clock : ReplayKey → Instant) :
    (CacheCall.tick shard s (.check c) clock).isSome = true := by
  obtain ⟨last, hlast⟩ := Option.ne_none_iff_exists'.1 (h c hc hloaded)
  obtain ⟨entry, hentry, -⟩ := Option.map_eq_some_iff.1 hlast
  have hmove : CheckMove shard s.checks c (clock c.key) _ _ := .store entry hloaded hentry
  rw [Option.isSome_iff_exists]
  exact ⟨_, CacheCall.tick_check_eq_some_iff.2 ⟨_, hmove, rfl⟩⟩

/-- A call that has to wait waits for a reference. -/
theorem Referenced.tick_or_held (h : s.Referenced) {call : CacheCall} (hcall : call ∈ s.threads)
    (hreturned : call.isReturned = false) (clock : ReplayKey → Instant) :
    (CacheCall.tick shard s call clock).isSome = true ∨ CacheCall.anyHeld s = true := by
  have hheld {key : ReplayKey} (hshard : CheckCall.shardHeld shard s.checks key = true) :
      CacheCall.anyHeld s = true := by
    obtain ⟨c, hc, hphase⟩ := List.any_eq_true.1 hshard
    exact List.any_eq_true.2 ⟨c, hc, (Bool.and_eq_true _ _ ▸ hphase).1⟩
  have hsome {g : CheckShared} {c c' : CheckCall}
      (hmove : CheckMove shard s.checks c (clock c.key) g c') :
      (CacheCall.tick shard s (.check c) clock).isSome = true := by
    rw [Option.isSome_iff_exists]
    exact ⟨_, CacheCall.tick_check_eq_some_iff.2 ⟨_, hmove, rfl⟩⟩
  cases call with
  | check c =>
      cases hphase : c.phase with
      | started =>
          refine Or.inl ?_
          cases hentry : s.checks.shared.cache.entries.get? c.key with
          | none => exact hsome (.miss hphase hentry)
          | some entry =>
              by_cases hle : c.seq ≤ entry.lastSeq
              · exact hsome (.reject entry hphase hentry hle)
              · exact hsome (.load entry hphase hentry (UInt16.not_le.1 hle))
      | loaded => exact Or.inl (h.tick_of_loaded hcall hphase clock)
      | missed =>
          refine Or.inl ?_
          rcases Nat.lt_or_ge s.checks.shared.cache.entries.len replayCacheMaxCapacity with
            hroom | hfull
          · exact hsome (.count hphase hroom)
          · exact hsome (.full hphase hfull)
      | counted =>
          cases hfree : CheckCall.shardHeld shard s.checks c.key with
          | true => exact Or.inr (hheld hfree)
          | false =>
              refine Or.inl ?_
              cases hentry : s.checks.shared.cache.entries.get? c.key with
              | none => exact hsome (.register hphase hfree hentry)
              | some entry =>
                  by_cases hle : c.seq ≤ entry.lastSeq
                  · exact hsome (.displace entry hphase hfree hentry hle)
                  · exact hsome (.replace entry hphase hfree hentry (UInt16.not_le.1 hle))
      | displaced oldEntry =>
          cases hfree : CheckCall.shardHeld shard s.checks c.key with
          | true => exact Or.inr (hheld hfree)
          | false => exact Or.inl (hsome (.restore oldEntry hphase hfree))
      | returned result =>
          rw [CacheCall.isReturned, CheckCall.isReturned, hphase] at hreturned
          cases hreturned
  | remove key found =>
      cases found with
      | none =>
          cases hfree : CheckCall.shardHeld shard s.checks key with
          | true => exact Or.inr (hheld hfree)
          | false => exact Or.inl (by simp [CacheCall.tick, hfree])
      | some found => cases hreturned
  | cleanup phase =>
      cases phase with
      | started => exact Or.inl rfl
      | counted before =>
          cases hfree : CacheCall.anyHeld s with
          | true => exact Or.inr rfl
          | false => exact Or.inl (by simp [CacheCall.tick, hfree])
      | retained before => exact Or.inl rfl
      | returned removed => cases hreturned

/-- Whether the call with a given number can take its next step. -/
def canAdvance (shard : ReplayKey → ℕ) (s : CacheState) (i : ℕ) : Prop :=
  ∀ clock, (CacheState.step shard s (.advance i clock)).isSome = true

theorem canAdvance_of_tick {i : ℕ} {call : CacheCall} (hi : s.threads[i]? = some call)
    (htick : ∀ clock, (CacheCall.tick shard s call clock).isSome = true) :
    s.canAdvance shard i := by
  intro clock
  obtain ⟨gc, hgc⟩ := Option.isSome_iff_exists.1 (htick clock)
  have hstep : CacheState.step shard s (.advance i clock) = some _ :=
    Threads.step_of_tick hi hgc
  exact Option.isSome_iff_exists.2 ⟨_, hstep⟩

/-- A call that has to wait waits for a check that can take its last step. -/
theorem Referenced.canAdvance_or (h : s.Referenced) {i : ℕ} {call : CacheCall}
    (hi : s.threads[i]? = some call) (hreturned : call.isReturned = false) :
    s.canAdvance shard i ∨
      ∃ j holder, s.threads[j]? = some (.check holder) ∧ holder.phase = .loaded ∧
        s.canAdvance shard j := by
  cases hheld : CacheCall.anyHeld s with
  | false =>
      refine Or.inl (canAdvance_of_tick hi fun clock => ?_)
      rcases h.tick_or_held (List.mem_of_getElem? hi) hreturned clock with htick | hheld'
      · exact htick
      · rw [hheld] at hheld'
        cases hheld'
  | true =>
      obtain ⟨holder, hholder, hphase⟩ := List.any_eq_true.1 hheld
      obtain ⟨j, hj⟩ := List.mem_iff_getElem?.1 (mem_checks.1 hholder)
      have hloaded : holder.phase = .loaded := by simpa using hphase
      refine Or.inr ⟨j, holder, hj, hloaded, canAdvance_of_tick hj fun clock => ?_⟩
      exact h.tick_of_loaded (mem_checks.1 hholder) hloaded clock

/-! ### Runs -/

/-- The references are good after every run. -/
theorem referenced_of_run {cache : ReplayCache} {actions : List CacheAction}
    (hrun : Runs.run (CacheState.step shard) (CacheState.begin cache) actions = some s) :
    s.Referenced :=
  Runs.invariant (fun _ _ _ h hstep => Referenced.step h hstep) (referenced_begin cache) hrun

/-- No call brings in more than four steps. -/
theorem sum_budget_le (actions : List CacheAction) :
    (actions.map (Threads.Action.budget CacheCall.start CacheCall.stepsLeft)).sum ≤
      4 * actions.countP fun a => !a.isAdvance := by
  induction actions with
  | nil => rfl
  | cons a actions ih =>
      rw [List.map_cons, List.sum_cons, List.countP_cons]
      have hone : a.budget CacheCall.start CacheCall.stepsLeft ≤
          4 * if !a.isAdvance then 1 else 0 := by
        cases a with
        | spawn request =>
            cases request <;>
              simp [Threads.Action.budget, Threads.Action.isAdvance, CacheCall.start,
                CacheCall.stepsLeft, CheckCall.start, CheckCall.stepsLeft]
        | advance i clock => exact Nat.le_refl 0
      omega

theorem remaining_le (s : CacheState) :
    Threads.remaining CacheCall.stepsLeft s ≤ 4 * s.threads.length := by
  have hle : ∀ n ∈ s.threads.map CacheCall.stepsLeft, n ≤ 4 := by
    intro n hn
    obtain ⟨call, -, rfl⟩ := List.mem_map.1 hn
    exact CacheCall.stepsLeft_le call
  have hsum := List.sum_le_card_nsmul _ 4 hle
  rwa [List.length_map, nsmul_eq_mul, Nat.cast_id, Nat.mul_comm] at hsum

/-- **Concurrent calls come to an end.**  Take any run of checks, removals and clean-ups on a replay
cache, with their steps in any order.  In the state reached, every call that has not returned can
take its next step, or else there is a check that holds a reference to an entry and can take its
last one.  The calls have taken no more than four steps for each of them.  And the calls that are in
progress can all return, in no more than four steps for each, whatever the clock shows. -/
theorem run_progress (shard : ReplayKey → ℕ) (cache : ReplayCache) (actions : List CacheAction)
    (s : CacheState)
    (hrun : Runs.run (CacheState.step shard) (CacheState.begin cache) actions = some s) :
    (∀ i call, s.threads[i]? = some call → call.isReturned = false →
        s.canAdvance shard i ∨
          ∃ j holder, s.threads[j]? = some (.check holder) ∧ holder.phase = .loaded ∧
            s.canAdvance shard j) ∧
      actions.countP Threads.Action.isAdvance ≤ 4 * actions.countP (fun a => !a.isAdvance) ∧
      ∀ clock, ∃ order : List ℕ, order.length ≤ 4 * s.threads.length ∧
        ∃ u, Runs.run (CacheState.step shard) s (order.map fun i => .advance i clock) = some u ∧
          ∀ call ∈ u.threads, call.isReturned = true := by
  have href := referenced_of_run hrun
  have htick : ∀ (s : CacheState) (call : CacheCall) clock g call',
      CacheCall.tick shard s call clock = some (g, call') →
        CacheCall.stepsLeft call' < CacheCall.stepsLeft call :=
    fun _ _ _ _ _ htick => CacheCall.stepsLeft_lt_of_tick htick
  refine ⟨fun i call hi hreturned => href.canAdvance_or hi hreturned, ?_, fun clock => ?_⟩
  · have hcount := Threads.countP_isAdvance_le htick hrun
    have hzero : Threads.remaining CacheCall.stepsLeft (CacheState.begin cache) = 0 := rfl
    have hbudget := sum_budget_le actions
    omega
  · have hcomplete := Threads.exists_completion (P := Referenced) clock htick
      (fun _ _ _ h hstep => Referenced.step h hstep) ?_ href
    · obtain ⟨order, hlength, u, hu, hend⟩ := hcomplete
      refine ⟨order, Nat.le_trans hlength s.remaining_le, u, hu, fun call hcall => ?_⟩
      exact CacheCall.stepsLeft_eq_zero_iff.1 (hend call hcall)
    · rintro s' h' ⟨call, hcall, hcost⟩
      rw [Ne, CacheCall.stepsLeft_eq_zero_iff, Bool.not_eq_true] at hcost
      obtain ⟨i, hi⟩ := List.mem_iff_getElem?.1 hcall
      have hor : CacheState.canAdvance shard s' i ∨ _ := h'.canAdvance_or hi hcost
      rcases hor with hadvance | ⟨j, holder, -, -, hadvance⟩
      · exact ⟨i, hadvance clock⟩
      · exact ⟨j, hadvance clock⟩

/-- A removal of a source while a check holds a reference to its entry. -/
def removalHeldUp : List CacheAction :=
  [.spawn (.checkAndUpdate CheckState.firstKey 6), .spawn (.remove CheckState.firstKey),
    .advance 0 fun _ => 1]

/-- The state in which the removal has to wait. -/
def heldUp : CacheState :=
  (Runs.run (CacheState.step fun _ => 0)
    (CacheState.begin (ReplayCache.new.register CheckState.firstKey 5 0)) removalHeldUp).get
    (by decide)

/-- Both calls can return. -/
theorem run_progress_heldUp :
    ∃ order : List ℕ, order.length ≤ 4 * heldUp.threads.length ∧
      ∃ u, Runs.run (CacheState.step fun _ => 0) heldUp
          (order.map fun i => .advance i fun _ => 2) = some u ∧
        ∀ call ∈ u.threads, call.isReturned = true :=
  (run_progress (fun _ => 0) (ReplayCache.new.register CheckState.firstKey 5 0) removalHeldUp heldUp
    (Option.some_get _).symm).2.2 fun _ => 2

end CacheState

end Bind19
