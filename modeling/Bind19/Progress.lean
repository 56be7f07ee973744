/-
**Threads that come to an end.**

A thread that may have to wait can wait for ever, if all threads wait for each other.  Here every
thread has a number of steps that it has left, at most, and every step that it takes makes the
number smaller.  Then no run goes on for ever without new threads; and if, as long as some thread is
not at its end, some thread can take a step, the threads that are there can all be brought to their
ends.

Main definitions:

* `Threads.remaining` — the steps that the threads have left together;
* `Threads.Action.budget` — the steps that an action brings in with the thread it starts.

Main results:

* `Threads.countP_isAdvance_le` — **no run has more steps than its threads bring in**;
* `Threads.exists_completion` — **where some thread can always take a step, all can come to their
  ends**.
-/

import Bind19.Runs
import Bind19.Threads
import Mathlib.Algebra.BigOperators.Group.List.Basic
import Mathlib.Algebra.GroupWithZero.Nat

set_option relaxedAutoImplicit false
set_option autoImplicit false

namespace Threads

variable {G T R I : Type*} {start : R → T} {tick : State G T → T → I → Option (G × T)}

/-- The steps that the threads have left together. -/
def remaining (cost : T → ℕ) (s : State G T) : ℕ := (s.threads.map cost).sum

/-- The steps that an action brings in with the thread it starts. -/
def Action.budget (start : R → T) (cost : T → ℕ) : Action R I → ℕ
  | .spawn request => cost (start request)
  | .advance _ _ => 0

/-- Whether the action is the step of a thread. -/
def Action.isAdvance : Action R I → Bool
  | .spawn _ => false
  | .advance _ _ => true

variable {cost : T → ℕ}

/-- The steps that are left after an action. -/
theorem remaining_step
    (htick : ∀ s t input g t', tick s t input = some (g, t') → cost t' < cost t)
    {s s' : State G T} {a : Action R I} (h : step start tick s a = some s') :
    (if a.isAdvance then 1 else 0) + remaining cost s' ≤
      remaining cost s + a.budget start cost := by
  rcases step_cases h with ⟨request, rfl, rfl⟩ | ⟨i, input, t, g, t', rfl, hi, ht, rfl⟩
  · simp [remaining, Action.isAdvance, Action.budget]
  · obtain ⟨before, after, heq, hset⟩ := exists_append_of_getElem? hi
    have hlt := htick s t input g t' ht
    dsimp only [remaining, Action.isAdvance, Action.budget]
    rw [hset, heq]
    simp only [List.map_append, List.map_cons, List.sum_append, List.sum_cons, if_true]
    omega

/-- **No run has more steps than its threads bring in.** -/
theorem countP_isAdvance_le
    (htick : ∀ s t input g t', tick s t input = some (g, t') → cost t' < cost t)
    {s u : State G T} {as : List (Action R I)}
    (hrun : Runs.run (step start tick) s as = some u) :
    as.countP Action.isAdvance + remaining cost u ≤
      remaining cost s + (as.map (Action.budget start cost)).sum := by
  induction as generalizing s with
  | nil =>
      obtain rfl := Option.some.inj hrun
      simp
  | cons a as ih =>
      obtain ⟨s', hs', hrun⟩ := (Runs.run_cons_eq_some_iff _).1 hrun
      have hone := remaining_step htick hs'
      have hrest := ih hrun
      rw [List.countP_cons, List.map_cons, List.sum_cons]
      omega

/-- **Where some thread can always take a step, all can come to their ends.** -/
theorem exists_completion {P : State G T → Prop} (input : I)
    (htick : ∀ s t input g t', tick s t input = some (g, t') → cost t' < cost t)
    (hP : ∀ s a s', P s → step start tick s a = some s' → P s')
    (hprogress : ∀ s, P s → (∃ t ∈ s.threads, cost t ≠ 0) →
      ∃ i, (step start tick s (.advance i input)).isSome = true)
    {s : State G T} (hs : P s) :
    ∃ order : List ℕ, order.length ≤ remaining cost s ∧
      ∃ u, Runs.run (step start tick) s (order.map fun i => .advance i input) = some u ∧
        ∀ t ∈ u.threads, cost t = 0 := by
  induction hn : remaining cost s using Nat.strongRecOn generalizing s with
  | ind n ih =>
      by_cases hdone : ∀ t ∈ s.threads, cost t = 0
      · exact ⟨[], Nat.zero_le _, s, rfl, hdone⟩
      · push Not at hdone
        obtain ⟨i, hi⟩ := hprogress s hs hdone
        obtain ⟨s', hs'⟩ := Option.isSome_iff_exists.1 hi
        have hone := remaining_step htick hs'
        simp only [Action.isAdvance, Action.budget, if_true] at hone
        obtain ⟨order, hlength, u, hrun, hend⟩ :=
          ih (remaining cost s') (by omega) (hP s _ s' hs hs') rfl
        refine ⟨i :: order, ?_, u, (Runs.run_cons_eq_some_iff _).2 ⟨s', hs', hrun⟩, hend⟩
        rw [List.length_cons]
        omega

end Threads
