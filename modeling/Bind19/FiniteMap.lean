/-
**Maps with finitely many keys.**

A concurrent hash map shows its clients a map with finitely many keys: what is stored under a key,
how many keys there are, and what an insertion displaces.  The buckets and the shards are not
visible. This module is that view, on top of the association lists of Mathlib, whose keys are
distinct by construction.

Main definitions:

* `FiniteMap` with `get?`, `insert`, `remove`, `retain`, `len`;
* `FiniteMap.insertFetch` — an insertion that returns what it displaced.

Main results:

* `FiniteMap.get?_insert`, `FiniteMap.get?_remove`, `FiniteMap.get?_retain` — what is stored
  afterwards;
* `FiniteMap.len_insert`, `FiniteMap.len_remove_add`, `FiniteMap.len_retain_add` — how many keys
  there are;
* `FiniteMap.len_lt_card` — how many keys there can be among finitely many.
-/

import Mathlib.Data.List.AList
import Mathlib.Data.Finset.Card

set_option relaxedAutoImplicit false
set_option autoImplicit false

/-- A map with finitely many keys. -/
abbrev FiniteMap (K V : Type*) := AList fun _ : K => V

namespace FiniteMap

variable {K V : Type*}

/-- The map without keys. -/
def empty : FiniteMap K V := (∅ : AList fun _ : K => V)

/-- The number of keys. -/
def len (m : FiniteMap K V) : ℕ := AList.entries m |>.length

/-- Drop the entries that do not satisfy `p`. -/
def retain (p : K → V → Bool) (m : FiniteMap K V) : FiniteMap K V :=
  ⟨(AList.entries m).filter fun e => p e.1 e.2, (AList.nodupKeys m).sublist List.filter_sublist⟩

variable [DecidableEq K]

/-- What is stored under a key. -/
def get? (m : FiniteMap K V) (k : K) : Option V := AList.lookup k m

/-- Store a value under a key, in place of what was there. -/
def insert (k : K) (v : V) (m : FiniteMap K V) : FiniteMap K V := AList.insert k v m

/-- Store a value under a key and return what was there. -/
def insertFetch (k : K) (v : V) (m : FiniteMap K V) : Option V × FiniteMap K V :=
  (m.get? k, m.insert k v)

/-- Drop a key. -/
def remove (k : K) (m : FiniteMap K V) : FiniteMap K V := AList.erase k m

/-! ### What is stored -/

theorem get?_insert (m : FiniteMap K V) (k k' : K) (v : V) :
    (m.insert k v).get? k' = if k' = k then some v else m.get? k' := by
  by_cases h : k' = k
  · rw [if_pos h, h]
    exact AList.lookup_insert m
  · rw [if_neg h]
    exact AList.lookup_insert_ne h

theorem get?_remove (m : FiniteMap K V) (k k' : K) :
    (m.remove k).get? k' = if k' = k then none else m.get? k' := by
  by_cases h : k' = k
  · rw [if_pos h, h]
    exact AList.lookup_erase k m
  · rw [if_neg h]
    exact AList.lookup_erase_ne h

theorem get?_eq_some_iff {m : FiniteMap K V} {k : K} {v : V} :
    m.get? k = some v ↔ (⟨k, v⟩ : Σ _ : K, V) ∈ AList.entries m := AList.mem_lookup_iff

theorem get?_retain (p : K → V → Bool) (m : FiniteMap K V) (k : K) :
    (m.retain p).get? k = (m.get? k).filter (p k) := by
  refine Option.ext fun v => ?_
  rw [get?_eq_some_iff, Option.filter_eq_some_iff, get?_eq_some_iff]
  exact List.mem_filter

/-! ### How many keys there are -/

omit [DecidableEq K] in
theorem len_eq_length_keys (m : FiniteMap K V) : m.len = (AList.keys m).length :=
  (List.length_map _).symm

theorem get?_isSome_iff {m : FiniteMap K V} {k : K} :
    (m.get? k).isSome = true ↔ k ∈ AList.keys m := AList.lookup_isSome

theorem get?_eq_none_of_len_eq_zero {m : FiniteMap K V} (h : m.len = 0) (k : K) :
    m.get? k = none := by
  rw [len_eq_length_keys, List.length_eq_zero_iff] at h
  rw [← Option.not_isSome_iff_eq_none, get?_isSome_iff, h]
  exact List.not_mem_nil

/-- An insertion adds a key unless it was there before. -/
theorem len_insert (m : FiniteMap K V) (k : K) (v : V) :
    (m.insert k v).len = if (m.get? k).isSome then m.len else m.len + 1 := by
  rw [len_eq_length_keys, len_eq_length_keys, insert, AList.keys_insert, List.length_cons]
  by_cases hk : (m.get? k).isSome = true
  · have hmem := get?_isSome_iff.1 hk
    rw [if_pos hk, List.length_erase_of_mem hmem]
    have hpos := List.length_pos_of_mem hmem
    omega
  · rw [if_neg hk, List.erase_of_not_mem (mt get?_isSome_iff.2 hk)]

theorem len_insert_of_some {m : FiniteMap K V} {k : K} {v : V} (h : m.get? k = some v) (v' : V) :
    (m.insert k v').len = m.len := by
  rw [len_insert, h]
  rfl

theorem len_insert_of_none {m : FiniteMap K V} {k : K} (h : m.get? k = none) (v : V) :
    (m.insert k v).len = m.len + 1 := by
  rw [len_insert, h]
  rfl

/-- A map whose keys are among those of a finite set, all but one, has fewer keys than the set. -/
theorem len_lt_card {m : FiniteMap K V} {keys : Finset K} {k : K}
    (hkeys : ∀ k, (m.get? k).isSome = true → k ∈ keys) (hk : k ∈ keys) (hnone : m.get? k = none) :
    m.len < keys.card := by
  have hmem : k ∉ (AList.keys m).toFinset := by
    rw [List.mem_toFinset, ← get?_isSome_iff, hnone]
    simp
  have hsub : (AList.keys m).toFinset ⊆ keys := fun k' hk' =>
    hkeys k' (get?_isSome_iff.2 (List.mem_toFinset.1 hk'))
  have hcard := Finset.card_lt_card ((Finset.ssubset_iff_of_subset hsub).2 ⟨k, hk, hmem⟩)
  rw [List.toFinset_card_of_nodup (AList.keys_nodup m), ← len_eq_length_keys] at hcard
  exact hcard

/-- A removal takes away the key if it is there. -/
theorem len_remove_add (m : FiniteMap K V) (k : K) :
    (m.remove k).len + (if (m.get? k).isSome then 1 else 0) = m.len := by
  rw [len_eq_length_keys, len_eq_length_keys, remove, AList.keys_erase]
  by_cases hk : (m.get? k).isSome = true
  · have hmem := get?_isSome_iff.1 hk
    have hpos := List.length_pos_of_mem hmem
    rw [if_pos hk, List.length_erase_of_mem hmem]
    omega
  · rw [if_neg hk, List.erase_of_not_mem (mt get?_isSome_iff.2 hk)]
    rfl

theorem len_remove_le (m : FiniteMap K V) (k : K) : (m.remove k).len ≤ m.len :=
  Nat.le.intro (m.len_remove_add k)

omit [DecidableEq K] in
/-- The entries that are kept and those that are dropped are all there are. -/
theorem len_retain_add (p : K → V → Bool) (m : FiniteMap K V) :
    (m.retain fun k v => !p k v).len + (m.retain p).len = m.len := by
  rw [Nat.add_comm]
  exact (List.length_eq_length_filter_add fun e : (Σ _ : K, V) => p e.1 e.2).symm

omit [DecidableEq K] in
theorem len_retain_le (p : K → V → Bool) (m : FiniteMap K V) : (m.retain p).len ≤ m.len :=
  List.length_filter_le _ _

end FiniteMap
