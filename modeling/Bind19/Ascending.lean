/-
**Ascending sequences and their last element.**

A checker that accepts a number only when it is greater than the last one it accepted does not have
to remember the others: if the accepted numbers ascend, the last one is the greatest of them.  Nor
does it have to remember those that it turned away: what is above the last accepted number is above
everything that was offered.  This module states these facts for lists and an arbitrary transitive
relation.

Main definitions:

* `Ascending.Bounds` — a number that stands for all the numbers offered.

Main results:

* `Ascending.pairwise_concat_iff` — an ascending list is extended by whatever is above its last
  element;
* `Ascending.eq_or_rel_last` — every element of an ascending list is its last one or below it;
* `Ascending.Bounds.concat_of_rel`, `Ascending.Bounds.concat_of_not_rel` — the number on record
  after an accepted and after a rejected one.
-/

import Mathlib.Data.List.Induction
import Mathlib.Data.List.Basic

set_option relaxedAutoImplicit false
set_option autoImplicit false

namespace Ascending

variable {α : Type*} {r : α → α → Prop}

/-- Every element of an ascending list is its last one or below it. -/
theorem eq_or_rel_last {l : List α} {y : α} (hl : l.Pairwise r) (hy : l.getLast? = some y) :
    ∀ x ∈ l, x = y ∨ r x y := by
  obtain ⟨init, rfl⟩ := List.getLast?_eq_some_iff.1 hy
  obtain ⟨-, -, hrel⟩ := List.pairwise_append.1 hl
  intro x hx
  rcases List.mem_append.1 hx with hx | hx
  · exact Or.inr (hrel x hx y (by simp))
  · exact Or.inl (List.mem_singleton.1 hx)

/-- An ascending list is extended by whatever is above its last element. -/
theorem pairwise_concat_iff (htrans : ∀ {a b c : α}, r a b → r b c → r a c) (l : List α) (x : α) :
    (l ++ [x]).Pairwise r ↔ l.Pairwise r ∧ ∀ y, l.getLast? = some y → r y x := by
  constructor
  · intro h
    obtain ⟨hl, -, hrel⟩ := List.pairwise_append.1 h
    exact ⟨hl, fun y hy => hrel y (List.mem_of_getLast? hy) x (by simp)⟩
  · rintro ⟨hl, hlast⟩
    refine List.pairwise_append.2 ⟨hl, List.pairwise_singleton r x, fun a ha b hb => ?_⟩
    obtain rfl := List.mem_singleton.1 hb
    cases hy : l.getLast? with
    | none =>
        rw [List.getLast?_eq_none_iff] at hy
        simp [hy] at ha
    | some y =>
        rcases eq_or_rel_last hl hy a ha with rfl | hay
        · exact hlast a hy
        · exact htrans hay (hlast y hy)

/-! ### A number that stands for all -/

/-- What is above all numbers of the list is what is above the one on record. -/
def Bounds (r : α → α → Prop) (last : Option α) (l : List α) : Prop :=
  ∀ x, (∀ n ∈ l, r n x) ↔ ∀ y, last = some y → r y x

theorem bounds_nil : Bounds r none [] := by
  intro x
  simp

/-- A number above the one on record takes its place. -/
theorem Bounds.concat_of_rel (htrans : ∀ {a b c : α}, r a b → r b c → r a c) {last : Option α}
    {l : List α} (h : Bounds r last l) {n : α} (hn : ∀ y, last = some y → r y n) :
    Bounds r (some n) (l ++ [n]) := by
  intro x
  have hbelow : ∀ m ∈ l, r m n := (h n).2 hn
  constructor
  · intro hall y hy
    obtain rfl := Option.some.inj hy
    exact hall n (by simp)
  · intro hx m hm
    rcases List.mem_append.1 hm with hm | hm
    · exact htrans (hbelow m hm) (hx n rfl)
    · obtain rfl := List.mem_singleton.1 hm
      exact hx m rfl

/-- Any other number may be forgotten. -/
theorem Bounds.concat_of_not_rel (hneg : ∀ {a b c : α}, ¬ r a b → r a c → r b c) {y : α}
    {l : List α} (h : Bounds r (some y) l) {n : α} (hn : ¬ r y n) :
    Bounds r (some y) (l ++ [n]) := by
  intro x
  constructor
  · intro hall
    exact (h x).1 fun m hm => hall m (by simp [hm])
  · intro hx m hm
    rcases List.mem_append.1 hm with hm | hm
    · exact (h x).2 hx m hm
    · obtain rfl := List.mem_singleton.1 hm
      exact hneg hn (hx y rfl)

end Ascending
