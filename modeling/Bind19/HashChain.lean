/-
**Chains of records linked by a digest.**

A record of a chain carries its own digest and the digest of the record before it; the first record
carries a fixed start value instead.  This module is about such chains in general: the records and
the digests are arbitrary types, and what makes a single record acceptable is an arbitrary
predicate.

Two things are proved.  A chain is tied to its last digest: if digests determine records as far as
some view of them goes, and no record has the start value for a digest, then two chains that end in
the same digest show the same view, record by record, and in particular have the same length.  And a
chain cannot be cut at the front: without its oldest records it is not a chain from the start value
any more, unless nothing is left of it.

Main definitions:

* `HashChain.Linked` — a list of records forms a chain from a start value;
* `HashChain.endHash` — the digest a chain ends in.

Main results:

* `HashChain.linked_append`, `HashChain.linked_concat` — chains are extended at the end;
* `HashChain.map_eq_of_endHash_eq` — **the last digest determines the chain**;
* `HashChain.linked_drop_iff` — **a chain does not survive the loss of its oldest records**.
-/

import Mathlib.Data.List.Basic
import Mathlib.Data.List.Induction

set_option relaxedAutoImplicit false
set_option autoImplicit false

namespace HashChain

variable {E D V : Type*} (prev hash : E → D) (ok : E → Prop)

/-! ### Chains -/

/-- The records `es` form a chain from `start`: each is acceptable and carries the digest of the one
before it, the first one `start`. -/
def Linked (start : D) : List E → Prop
  | [] => True
  | e :: es => ok e ∧ prev e = start ∧ Linked (hash e) es

/-- The digest the chain `es` from `start` ends in. -/
def endHash (start : D) (es : List E) : D := (es.getLast?.map hash).getD start

@[simp] theorem linked_nil (start : D) : Linked prev hash ok start [] := trivial

theorem linked_cons (start : D) (e : E) (es : List E) :
    Linked prev hash ok start (e :: es) ↔
      ok e ∧ prev e = start ∧ Linked prev hash ok (hash e) es := Iff.rfl

@[simp] theorem endHash_nil (start : D) : endHash hash start [] = start := rfl

theorem endHash_cons (start : D) (e : E) (es : List E) :
    endHash hash start (e :: es) = endHash hash (hash e) es := by
  rw [endHash, endHash, List.getLast?_cons]
  cases es.getLast? <;> rfl

@[simp] theorem endHash_concat (start : D) (es : List E) (e : E) :
    endHash hash start (es ++ [e]) = hash e := by
  simp [endHash]

/-- A chain followed by a chain from its last digest is a chain. -/
theorem linked_append (start : D) (xs ys : List E) :
    Linked prev hash ok start (xs ++ ys) ↔
      Linked prev hash ok start xs ∧ Linked prev hash ok (endHash hash start xs) ys := by
  induction xs generalizing start with
  | nil => simp
  | cons x xs ih =>
      rw [List.cons_append, linked_cons, linked_cons, ih, endHash_cons, and_assoc, and_assoc]

/-- A chain is extended by an acceptable record that carries its last digest. -/
theorem linked_concat (start : D) (es : List E) (e : E) :
    Linked prev hash ok start (es ++ [e]) ↔
      Linked prev hash ok start es ∧ ok e ∧ prev e = endHash hash start es := by
  rw [linked_append, linked_cons]
  simp

variable {prev hash ok}

/-- Every record of a chain is acceptable. -/
theorem Linked.ok_of_mem {start : D} {es : List E} (h : Linked prev hash ok start es) {e : E}
    (he : e ∈ es) : ok e := by
  induction es generalizing start with
  | nil => simp at he
  | cons x xs ih =>
      rcases List.mem_cons.1 he with rfl | he
      · exact h.1
      · exact ih h.2.2 he

/-- The first record of a chain carries the start value. -/
theorem Linked.prev_of_getElem?_zero {start : D} {es : List E} (h : Linked prev hash ok start es)
    {e : E} (he : es[0]? = some e) : prev e = start := by
  cases es with
  | nil => simp at he
  | cons x xs =>
      obtain rfl := Option.some.inj he
      exact h.2.1

/-- Every other record carries the digest of the one before it. -/
theorem Linked.prev_of_getElem?_succ {start : D} {es : List E} (h : Linked prev hash ok start es)
    {i : ℕ} {e e' : E} (he : es[i]? = some e) (he' : es[i + 1]? = some e') : prev e' = hash e := by
  induction es generalizing start i with
  | nil => simp at he
  | cons x xs ih =>
      cases i with
      | zero =>
          obtain rfl := Option.some.inj he
          exact h.2.2.prev_of_getElem?_zero he'
      | succ i => exact ih h.2.2 he he'

/-! ### The last digest determines the chain -/

/-- **The last digest determines the chain.**  Let digests determine records as far as `view` and
the preceding digest go, and let no record of the two chains have the start value for its digest.
If the chains end in the same digest, they show the same view record by record. -/
theorem map_eq_of_endHash_eq {start : D} {view : E → V} {xs ys : List E}
    (hinj : ∀ x ∈ xs, ∀ y ∈ ys, ok x → ok y → hash x = hash y → view x = view y ∧ prev x = prev y)
    (hxs : ∀ x ∈ xs, hash x ≠ start) (hys : ∀ y ∈ ys, hash y ≠ start)
    (hx : Linked prev hash ok start xs) (hy : Linked prev hash ok start ys)
    (hend : endHash hash start xs = endHash hash start ys) : xs.map view = ys.map view := by
  -- from the end: equal last digests give equal preceding digests, until one chain is exhausted
  induction xs using List.reverseRecOn generalizing ys with
  | nil =>
      rcases List.eq_nil_or_concat ys with rfl | ⟨ys, y, rfl⟩
      · rfl
      · rw [List.concat_eq_append, endHash_nil, endHash_concat] at hend
        exact absurd hend.symm (hys y (by simp))
  | append_singleton xs x ih =>
      rcases List.eq_nil_or_concat ys with rfl | ⟨ys, y, rfl⟩
      · rw [endHash_nil, endHash_concat] at hend
        exact absurd hend (hxs x (by simp))
      · rw [List.concat_eq_append] at *
        obtain ⟨hx, hokx, hprevx⟩ := (linked_concat prev hash ok start xs x).1 hx
        obtain ⟨hy, hoky, hprevy⟩ := (linked_concat prev hash ok start ys y).1 hy
        rw [endHash_concat, endHash_concat] at hend
        obtain ⟨hview, hprev⟩ := hinj x (by simp) y (by simp) hokx hoky hend
        have hxy : xs.map view = ys.map view :=
          ih (fun a ha b hb => hinj a (by simp [ha]) b (by simp [hb]))
            (fun a ha => hxs a (by simp [ha])) (fun b hb => hys b (by simp [hb])) hx hy
            (hprevx ▸ hprevy ▸ hprev)
        rw [List.map_append, List.map_append, hxy, List.map_singleton, List.map_singleton, hview]

/-! ### Cutting a chain at the front -/

/-- What is left of a chain without its oldest records starts at the digest of the last one lost. -/
theorem linked_drop {start : D} {es : List E} (h : Linked prev hash ok start es) (k : ℕ) :
    Linked prev hash ok (endHash hash start (es.take k)) (es.drop k) := by
  rw [← List.take_append_drop k es, linked_append] at h
  exact h.2

/-- A chain from two start values is empty. -/
theorem Linked.start_unique {start start' : D} {e : E} {es : List E}
    (h : Linked prev hash ok start (e :: es)) (h' : Linked prev hash ok start' (e :: es)) :
    start = start' := h.2.1.symm.trans h'.2.1

/-- **A chain does not survive the loss of its oldest records.**  If no record has the start value
for its digest, what is left of a chain after dropping `k` records is a chain from the start value
only when nothing was dropped or nothing is left. -/
theorem linked_drop_iff {start : D} {es : List E} (h : Linked prev hash ok start es)
    (hstart : ∀ e ∈ es, hash e ≠ start) (k : ℕ) :
    Linked prev hash ok start (es.drop k) ↔ k = 0 ∨ es.length ≤ k := by
  constructor
  · intro hk
    by_contra hcon
    obtain ⟨hk0, hklen⟩ := not_or.1 hcon
    obtain ⟨e, rest, hrest⟩ : ∃ e rest, es.drop k = e :: rest :=
      List.exists_cons_of_ne_nil (by rw [Ne, List.drop_eq_nil_iff]; exact hklen)
    have hcut := linked_drop h k
    rw [hrest] at hk hcut
    -- the last record dropped would have to end in the start value
    have hend := Linked.start_unique hcut hk
    rcases List.eq_nil_or_concat (es.take k) with hnil | ⟨pre, x, hpre⟩
    · rw [List.take_eq_nil_iff] at hnil
      rcases hnil with hnil | rfl
      · exact hk0 hnil
      · simp at hrest
    · rw [hpre, List.concat_eq_append, endHash_concat] at hend
      have hmem : x ∈ es.take k := by
        rw [hpre]
        simp
      exact hstart x (List.mem_of_mem_take hmem) hend
  · rintro (rfl | hlen)
    · exact h
    · rw [List.drop_of_length_le hlen]
      trivial

end HashChain
