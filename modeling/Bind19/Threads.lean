/-
**Threads over shared data.**

Any number of threads work on shared data.  A thread is a value that says how far it has come; one
action starts a thread, another lets one thread take its next atomic step, in which it sees the
shared data and where the other threads are, and may have to wait.  Interleavings are lists of such
actions.

Main definitions:

* `Threads.State` — shared data and threads;
* `Threads.Action`, `Threads.step` — one action on them;
* `Threads.Alone` — no two threads go by the same name.

Main results:

* `Threads.step_cases` — what one action can do;
* `Threads.step_of_tick`, `Threads.step_advance` — the step of a given thread;
* `Threads.getElem?_step` — where a given thread is after a step;
* `Threads.mem_set_of_ne` — the step of one thread leaves the others where they are;
* `Threads.filterMap_set_of_eq`, `Threads.perm_filterMap_set`, `Threads.countP_set_add` — what the
  threads hold together after a step of one of them;
* `Threads.Alone.append`, `Threads.Alone.set` — no two threads go by the same name;
* `Threads.map_threads_of_step` — the threads are those that were started.
-/

import Mathlib.Data.List.Basic
import Mathlib.Data.List.Perm.Basic

set_option relaxedAutoImplicit false
set_option autoImplicit false

namespace Threads

/-- Shared data and the threads that work on it. -/
structure State (G T : Type*) where
  shared : G
  threads : List T

/-- Start a thread, or let the thread with a given number take its next step. -/
inductive Action (R I : Type*)
  | spawn (request : R)
  | advance (i : ℕ) (input : I)

variable {G T R I : Type*} (start : R → T) (tick : State G T → T → I → Option (G × T))

/-- One action.  A thread whose step is not possible has to wait. -/
def step (s : State G T) : Action R I → Option (State G T)
  | .spawn request => some { s with threads := s.threads ++ [start request] }
  | .advance i input =>
      match s.threads[i]? with
      | none => none
      | some t =>
          match tick s t input with
          | none => none
          | some (g, t') => some { shared := g, threads := s.threads.set i t' }

variable {start tick}

/-- What one action can do. -/
theorem step_cases {s s' : State G T} {a : Action R I} (h : step start tick s a = some s') :
    (∃ request, a = .spawn request ∧
        s' = { shared := s.shared, threads := s.threads ++ [start request] }) ∨
      ∃ i input t g t', a = .advance i input ∧ s.threads[i]? = some t ∧
        tick s t input = some (g, t') ∧ s' = { shared := g, threads := s.threads.set i t' } := by
  cases a with
  | spawn request => exact Or.inl ⟨request, rfl, (Option.some.inj h).symm⟩
  | advance i input =>
      rw [step] at h
      cases ht : s.threads[i]? with
      | none =>
          rw [ht] at h
          cases h
      | some t =>
          rw [ht] at h
          dsimp only at h
          cases hg : tick s t input with
          | none =>
              rw [hg] at h
              cases h
          | some gt =>
              rw [hg] at h
              exact Or.inr ⟨i, input, t, gt.1, gt.2, rfl, ht, hg, (Option.some.inj h).symm⟩

/-- A thread that does not have to wait takes its step. -/
theorem step_of_tick {s : State G T} {i : ℕ} {input : I} {t t' : T} {g : G}
    (hi : s.threads[i]? = some t) (ht : tick s t input = some (g, t')) :
    step start tick s (.advance i input) = some { shared := g, threads := s.threads.set i t' } := by
  rw [step, hi]
  dsimp only
  rw [ht]

/-- A thread stays where it is, or takes the step itself. -/
theorem getElem?_step {s s' : State G T} {a : Action R I} {i : ℕ} {t : T}
    (h : step start tick s a = some s') (hi : s.threads[i]? = some t) :
    s'.threads[i]? = some t ∨
      ∃ input g t', tick s t input = some (g, t') ∧ s'.threads[i]? = some t' := by
  obtain ⟨hlt, -⟩ := List.getElem?_eq_some_iff.1 hi
  rcases step_cases h with ⟨request, rfl, rfl⟩ | ⟨j, input, t₀, g, t', rfl, hj, ht, rfl⟩
  · refine Or.inl ?_
    dsimp only
    rw [List.getElem?_append_left hlt, hi]
  · by_cases hij : j = i
    · subst hij
      obtain rfl := Option.some.inj (hi.symm.trans hj)
      exact Or.inr ⟨input, g, t', ht, List.getElem?_set_self hlt⟩
    · refine Or.inl ?_
      dsimp only
      rw [List.getElem?_set_ne hij, hi]

/-- The step of a given thread. -/
theorem step_advance {s s' : State G T} {i : ℕ} {input : I} {t : T}
    (h : step start tick s (.advance i input) = some s') (hi : s.threads[i]? = some t) :
    ∃ g t', tick s t input = some (g, t') ∧ s'.shared = g ∧ s'.threads[i]? = some t' := by
  obtain ⟨hlt, -⟩ := List.getElem?_eq_some_iff.1 hi
  rcases step_cases h with ⟨request, hspawn, -⟩ | ⟨j, input', t₀, g, t', hadvance, hj, ht, rfl⟩
  · cases hspawn
  · cases hadvance
    obtain rfl := Option.some.inj (hi.symm.trans hj)
    exact ⟨g, t', ht, rfl, List.getElem?_set_self hlt⟩

/-- The step of one thread leaves the others where they are. -/
theorem mem_set_of_ne {threads : List T} {i : ℕ} {t t' x : T} (hi : threads[i]? = some t)
    (hx : x ∈ threads) (hne : x ≠ t) : x ∈ threads.set i t' := by
  obtain ⟨j, hj⟩ := List.mem_iff_getElem?.1 hx
  have hij : i ≠ j := by
    rintro rfl
    exact hne (Option.some.inj (hj.symm.trans hi))
  refine List.mem_iff_getElem?.2 ⟨j, ?_⟩
  rw [List.getElem?_set_ne hij]
  exact hj

/-- The thread that took the step is there in its new place. -/
theorem mem_set_self {threads : List T} {i : ℕ} {t : T} (hi : threads[i]? = some t) (t' : T) :
    t' ∈ threads.set i t' := by
  obtain ⟨hlt, -⟩ := List.getElem?_eq_some_iff.1 hi
  exact List.mem_iff_getElem?.2 ⟨i, List.getElem?_set_self hlt⟩

/-- A thread after a step is the one that took it, or was there before. -/
theorem eq_or_mem_of_mem_set {threads : List T} {i : ℕ} {t' x : T} (hx : x ∈ threads.set i t') :
    x = t' ∨ x ∈ threads := (List.mem_or_eq_of_mem_set hx).symm

/-- A thread is one of those that were there, or the new one. -/
theorem getElem?_append_singleton {threads : List T} {i : ℕ} {t x : T}
    (h : (threads ++ [t])[i]? = some x) :
    threads[i]? = some x ∨ (i = threads.length ∧ x = t) := by
  rcases Nat.lt_or_ge i threads.length with hlt | hge
  · rw [List.getElem?_append_left hlt] at h
    exact Or.inl h
  · rw [List.getElem?_append_right hge] at h
    obtain ⟨hlt, hx⟩ := List.getElem?_eq_some_iff.1 h
    rw [List.length_singleton] at hlt
    refine Or.inr ⟨by omega, ?_⟩
    rw [← hx, List.getElem_singleton]

/-! ### What the threads hold together -/

variable {B : Type*} {f : T → Option B}

/-- A thread stands between others, which stay when it takes a step. -/
theorem exists_append_of_getElem? {threads : List T} {i : ℕ} {t : T} (hi : threads[i]? = some t) :
    ∃ before after, threads = before ++ t :: after ∧
      ∀ t', threads.set i t' = before ++ t' :: after := by
  obtain ⟨hlt, hget⟩ := List.getElem?_eq_some_iff.1 hi
  refine ⟨threads.take i, threads.drop (i + 1), ?_, fun t' => ?_⟩
  · rw [← hget, List.getElem_cons_drop, List.take_append_drop]
  · exact List.set_eq_take_append_cons_drop.trans (if_pos hlt)

/-- A step that does not change what the thread holds. -/
theorem filterMap_set_of_eq {threads : List T} {i : ℕ} {t t' : T} (hi : threads[i]? = some t)
    (h : f t' = f t) : (threads.set i t').filterMap f = threads.filterMap f := by
  obtain ⟨before, after, heq, hset⟩ := exists_append_of_getElem? hi
  rw [hset, heq, List.filterMap_append, List.filterMap_append, List.filterMap_cons,
    List.filterMap_cons, h]

/-- A step by which the thread gets hold of something. -/
theorem perm_filterMap_set {threads : List T} {i : ℕ} {t t' : T} {b : B}
    (hi : threads[i]? = some t) (h : f t = none) (h' : f t' = some b) :
    ((threads.set i t').filterMap f).Perm (threads.filterMap f ++ [b]) := by
  obtain ⟨before, after, heq, hset⟩ := exists_append_of_getElem? hi
  rw [hset, heq, List.filterMap_append, List.filterMap_append, List.filterMap_cons_some h',
    List.filterMap_cons_none h, List.append_assoc]
  exact (List.perm_append_singleton b (after.filterMap f)).symm.append_left _

/-- How many threads have a property after a step of one of them. -/
theorem countP_set_add {threads : List T} {i : ℕ} {t : T} (p : T → Bool) (hi : threads[i]? = some t)
    (t' : T) : (threads.set i t').countP p + (p t).toNat = threads.countP p + (p t').toNat := by
  obtain ⟨before, after, heq, hset⟩ := exists_append_of_getElem? hi
  rw [hset, heq]
  simp only [List.countP_append, List.countP_cons]
  cases p t <;> cases p t' <;> simp <;> omega

/-! ### Threads that go by a name -/

section Alone

variable {K : Type*} {name : T → Option K} {threads : List T}

/-- No two threads go by the same name.  A thread may have none. -/
def Alone (name : T → Option K) (threads : List T) : Prop :=
  ∀ (i j : ℕ) (t t' : T) (k : K), threads[i]? = some t → threads[j]? = some t' →
    name t = some k → name t' = some k → i = j

theorem alone_nil : Alone name [] := by
  intro i j t t' k hi
  cases hi

/-- A new thread with a name that is not in use. -/
theorem Alone.append (h : Alone name threads) {t : T}
    (hnew : ∀ x ∈ threads, ∀ k, name x = some k → name t ≠ some k) :
    Alone name (threads ++ [t]) := by
  intro i j x x' k hi hj hx hx'
  rcases getElem?_append_singleton hi with hiold | ⟨hilen, hinew⟩
  · rcases getElem?_append_singleton hj with hjold | ⟨hjlen, hjnew⟩
    · exact h i j x x' k hiold hjold hx hx'
    · rw [hjnew] at hx'
      exact absurd hx' (hnew x (List.mem_of_getElem? hiold) k hx)
  · rcases getElem?_append_singleton hj with hjold | ⟨hjlen, hjnew⟩
    · rw [hinew] at hx
      exact absurd hx (hnew x' (List.mem_of_getElem? hjold) k hx')
    · exact hilen.trans hjlen.symm

/-- A thread keeps its name when it takes a step, or gives it up. -/
theorem Alone.set (h : Alone name threads) {i : ℕ} {t t' : T} (hi : threads[i]? = some t)
    (hname : ∀ k, name t' = some k → name t = some k) : Alone name (threads.set i t') := by
  obtain ⟨hlt, -⟩ := List.getElem?_eq_some_iff.1 hi
  have hself : (threads.set i t')[i]? = some t' := List.getElem?_set_self hlt
  -- where a thread was before
  have hbefore {l : ℕ} {x : T} {k : K} (hl : (threads.set i t')[l]? = some x)
      (hx : name x = some k) : ∃ x₀, threads[l]? = some x₀ ∧ name x₀ = some k := by
    by_cases hil : i = l
    · subst hil
      obtain rfl := Option.some.inj (hself.symm.trans hl)
      exact ⟨t, hi, hname k hx⟩
    · rw [List.getElem?_set_ne hil] at hl
      exact ⟨x, hl, hx⟩
  intro j l x x' k hj hl hx hx'
  obtain ⟨x₀, hj₀, hx₀⟩ := hbefore hj hx
  obtain ⟨x₁, hl₁, hx₁⟩ := hbefore hl hx'
  exact h j l x₀ x₁ k hj₀ hl₁ hx₀ hx₁

/-- The other threads go by other names. -/
theorem Alone.ne (h : Alone name threads) {i j : ℕ} {t t' : T} {k : K} (hij : i ≠ j)
    (hi : threads[i]? = some t) (hj : threads[j]? = some t') (ht : name t = some k) :
    name t' ≠ some k := fun ht' => hij (h i j t t' k hi hj ht ht')

end Alone

/-- The request that an action starts a thread with. -/
def Action.spawned : Action R I → Option R
  | .spawn request => some request
  | .advance _ _ => none

/-- The threads are those that were started, in order. -/
theorem map_threads_of_step {f : T → R} (hstart : ∀ request, f (start request) = request)
    (htick : ∀ s t input g t', tick s t input = some (g, t') → f t' = f t) {s s' : State G T}
    {a : Action R I} (h : step start tick s a = some s') :
    s'.threads.map f = s.threads.map f ++ a.spawned.toList := by
  rcases step_cases h with ⟨request, rfl, rfl⟩ | ⟨i, input, t, g, t', rfl, hi, ht, rfl⟩
  · simp [Action.spawned, hstart]
  · obtain ⟨before, after, heq, hset⟩ := exists_append_of_getElem? hi
    dsimp only
    rw [hset, heq]
    simp [Action.spawned, htick s t input g t' ht]

end Threads
