/-
**Reading a stream item by item.**

A reader appends what it gets from a stream to a buffer and cuts items off the front for as long as
its parser finds one there.  How the stream is cut into pieces is nobody's choice, so the items must
not depend on it.  They do not if the parser never takes back a final answer: an item that it finds
at the front of a buffer, or a fault, it finds there whatever bytes follow.

Two consequences are proved for every such parser.  If it finds an encoding at the front of whatever
starts with one, the encodings of a list of items are read back after each other, and no other list
of items has the same bytes.  And a second parser that takes every item for one of the same length
reads the same stream up to where the first one stops.

Main definitions:

* `Cut` — what a parser says about the front of a buffer; `Framer` — a parser;
* `Framer.read`, `Framer.skip` — what is read from a buffer, and what is left of it after one item;
* `Framer.feed` — the next piece of a stream arrives.

Main results:

* `Framer.foldl_feed` — **how the stream is cut does not matter**;
* `Framer.read_flatMap` — the encodings of a list of items are read back;
* `Framer.flatMap_inj` — and belong to no other list;
* `Framer.inStep_iff` — **when a parser keeps step** with a list of encodings that it cuts after a
  length of its own;
* `Framer.read_of_agree` — a second parser that agrees on the items of the first.
-/

import Mathlib.Data.List.Basic
import Mathlib.Logic.Function.Iterate

set_option relaxedAutoImplicit false
set_option autoImplicit false

/-- What a parser says about the front of a buffer. -/
inductive Cut (A E : Type*)
  /-- The bytes are the front of an item, or nothing yet. -/
  | more
  /-- An item, and how many bytes it takes. -/
  | item (a : A) (length : ℕ)
  /-- The bytes are not the front of an item. -/
  | fail (e : E)

/-- A parser of the item at the front of a buffer.  It never takes back an item or a fault. -/
structure Framer (B A E : Type*) where
  cut : List B → Cut A E
  cut_nil : cut [] = .more
  item_append : ∀ {buf : List B} {a : A} {n : ℕ}, cut buf = .item a n →
    ∀ t, cut (buf ++ t) = .item a n
  fail_append : ∀ {buf : List B} {e : E}, cut buf = .fail e → ∀ t, cut (buf ++ t) = .fail e
  item_pos : ∀ {buf : List B} {a : A} {n : ℕ}, cut buf = .item a n → 0 < n
  item_le : ∀ {buf : List B} {a : A} {n : ℕ}, cut buf = .item a n → n ≤ buf.length

/-- What a reader has read: the items, the bytes that it still holds, and the fault that it stopped
at, if any. -/
structure Reading (B A E : Type*) where
  items : List A
  buffer : List B
  error : Option E

/-- Nothing was read yet. -/
def Reading.start {B A E : Type*} : Reading B A E := { items := [], buffer := [], error := none }

/-- The same with items read before. -/
def Reading.prepend {B A E : Type*} (items : List A) (r : Reading B A E) : Reading B A E :=
  { r with items := items ++ r.items }

namespace Framer

variable {B A E : Type*} (p : Framer B A E)

/-- What is read from a buffer. -/
def read (buf : List B) : Reading B A E :=
  match _h : p.cut buf with
  | .more => { items := [], buffer := buf, error := none }
  | .fail e => { items := [], buffer := buf, error := some e }
  | .item a n => (read (buf.drop n)).prepend [a]
termination_by buf.length
decreasing_by
  have hpos := p.item_pos _h
  have hle := p.item_le _h
  rw [List.length_drop]
  omega

/-- What is left of a buffer after the item at its front, if there is one. -/
def skip (buf : List B) : List B :=
  match p.cut buf with
  | .item _ n => buf.drop n
  | _ => buf

/-- The next piece of a stream arrives.  After a fault it is kept and not looked at. -/
def feed (r : Reading B A E) (piece : List B) : Reading B A E :=
  match r.error with
  | some _ => { r with buffer := r.buffer ++ piece }
  | none => (p.read (r.buffer ++ piece)).prepend r.items

variable {p} {buf t : List B} {a : A} {n : ℕ} {e : E}

theorem read_of_more (h : p.cut buf = .more) :
    p.read buf = { items := [], buffer := buf, error := none } := by
  rw [read]
  split
  · rfl
  · rename_i h'
    cases h.symm.trans h'
  · rename_i h'
    cases h.symm.trans h'

theorem read_of_fail (h : p.cut buf = .fail e) :
    p.read buf = { items := [], buffer := buf, error := some e } := by
  rw [read]
  split
  · rename_i h'
    cases h.symm.trans h'
  · rename_i h'
    cases h.symm.trans h'
    rfl
  · rename_i h'
    cases h.symm.trans h'

theorem read_of_item (h : p.cut buf = .item a n) :
    p.read buf = (p.read (buf.drop n)).prepend [a] := by
  conv_lhs => rw [read]
  split
  · rename_i h'
    cases h.symm.trans h'
  · rename_i h'
    cases h.symm.trans h'
  · rename_i h'
    cases h.symm.trans h'
    rfl

theorem skip_of_item (h : p.cut buf = .item a n) : p.skip buf = buf.drop n := by
  rw [skip, h]

/-- Induction along the items of a buffer. -/
theorem read_induction {motive : List B → Prop}
    (more : ∀ buf, p.cut buf = .more → motive buf)
    (fail : ∀ buf e, p.cut buf = .fail e → motive buf)
    (item : ∀ buf a n, p.cut buf = .item a n → motive (buf.drop n) → motive buf)
    (buf : List B) : motive buf := by
  induction hlen : buf.length using Nat.strongRecOn generalizing buf with
  | ind len ih =>
      cases h : p.cut buf with
      | more => exact more buf h
      | fail e => exact fail buf e h
      | item a n =>
          have hpos := p.item_pos h
          have hle := p.item_le h
          refine item buf a n h (ih (buf.drop n).length ?_ (buf.drop n) rfl)
          rw [List.length_drop]
          omega

/-! ### Pieces of a stream -/

theorem feed_prepend (items : List A) (r : Reading B A E) (piece : List B) :
    p.feed (r.prepend items) piece = (p.feed r piece).prepend items := by
  cases h : r.error with
  | none =>
      have h' : (r.prepend items).error = none := h
      rw [feed, feed, h, h']
      simp only [Reading.prepend, List.append_assoc]
  | some e =>
      have h' : (r.prepend items).error = some e := h
      rw [feed, feed, h, h']
      rfl

/-- What is read from a buffer, and then from more bytes, is what is read from all of them. -/
theorem feed_read (buf piece : List B) : p.feed (p.read buf) piece = p.read (buf ++ piece) := by
  induction buf using @read_induction _ _ _ p with
  | more buf h =>
      rw [read_of_more h, feed]
      rfl
  | fail buf e h =>
      rw [read_of_fail h, read_of_fail (p.fail_append h piece)]
      rfl
  | item buf a n h ih =>
      rw [read_of_item h, feed_prepend, ih, read_of_item (p.item_append h piece),
        List.drop_append_of_le_length (p.item_le h)]

theorem foldl_feed_read (pieces : List (List B)) (buf : List B) :
    pieces.foldl p.feed (p.read buf) = p.read (buf ++ pieces.flatten) := by
  induction pieces generalizing buf with
  | nil => rw [List.foldl_nil, List.flatten_nil, List.append_nil]
  | cons piece pieces ih =>
      rw [List.foldl_cons, feed_read, ih, List.flatten_cons, List.append_assoc]

/-- **How the stream is cut does not matter.**  A reader that gets a stream in pieces reads what is
read from all of it at once. -/
theorem foldl_feed (pieces : List (List B)) :
    pieces.foldl p.feed .start = p.read pieces.flatten := by
  have hstart : p.read [] = .start := read_of_more p.cut_nil
  have hfold := @foldl_feed_read _ _ _ p pieces []
  rwa [hstart, List.nil_append] at hfold

/-! ### Encodings after each other -/

variable {X : Type*} {encode : X → List B} {image : X → A} {xs ys : List X}

/-- The encodings of a list of items are read back. -/
theorem read_flatMap
    (hcut : ∀ x ∈ xs, ∀ t, p.cut (encode x ++ t) = .item (image x) (encode x).length)
    (t : List B) : p.read (xs.flatMap encode ++ t) = (p.read t).prepend (xs.map image) := by
  induction xs with
  | nil => rfl
  | cons x xs ih =>
      rw [List.forall_mem_cons] at hcut
      rw [List.flatMap_cons, List.append_assoc, read_of_item (hcut.1 _), List.drop_left, ih hcut.2]
      rfl

/-- Two lists of encodings that are the same bytes, each followed by the front of another, are the
encodings of the same items. -/
theorem flatMap_inj
    (hxs : ∀ x ∈ xs, ∀ t, p.cut (encode x ++ t) = .item (image x) (encode x).length)
    (hys : ∀ x ∈ ys, ∀ t, p.cut (encode x ++ t) = .item (image x) (encode x).length)
    {t t' : List B} (ht : p.cut t = .more) (ht' : p.cut t' = .more)
    (h : xs.flatMap encode ++ t = ys.flatMap encode ++ t') :
    xs.map image = ys.map image ∧ t = t' := by
  have hread := read_flatMap hxs t
  rw [h, read_flatMap hys t', read_of_more ht, read_of_more ht'] at hread
  simp only [Reading.prepend, List.append_nil, Reading.mk.injEq, and_true] at hread
  exact ⟨hread.1.symm, hread.2.symm⟩

/-- **When a parser keeps step.**  Let a parser cut each encoding after a length of its own,
whatever follows it.  After every number of items it is at the start of the next encoding, exactly
if its lengths are those of the encodings. -/
theorem inStep_iff {image : X → List B → A} {length : X → ℕ}
    (hcut : ∀ x ∈ xs, ∀ t, p.cut (encode x ++ t) = .item (image x t) (length x)) (t : List B) :
    (∀ k ≤ xs.length, p.skip^[k] (xs.flatMap encode ++ t) = (xs.drop k).flatMap encode ++ t) ↔
      ∀ x ∈ xs, length x = (encode x).length := by
  induction xs with
  | nil =>
      refine ⟨fun _ x hx => absurd hx List.not_mem_nil, fun _ k hk => ?_⟩
      rw [Nat.le_zero.1 hk]
      rfl
  | cons x xs ih =>
      rw [List.forall_mem_cons] at hcut
      have hitem := hcut.1 (xs.flatMap encode ++ t)
      have hskip : ∀ k, p.skip^[k + 1] ((x :: xs).flatMap encode ++ t) =
          p.skip^[k] ((encode x ++ (xs.flatMap encode ++ t)).drop (length x)) := by
        intro k
        rw [List.flatMap_cons, List.append_assoc, Function.iterate_succ_apply, skip_of_item hitem]
      constructor
      · intro hstep
        -- the first item ends where the first encoding does
        have hfirst := hstep 1 (by rw [List.length_cons]; omega)
        rw [hskip] at hfirst
        have hlen := congrArg List.length hfirst
        have hle := p.item_le hitem
        rw [Function.iterate_zero_apply, List.length_drop, List.drop_one, List.tail_cons] at hlen
        rw [List.length_append] at hlen hle
        have hx : length x = (encode x).length := by omega
        refine List.forall_mem_cons.2 ⟨hx, (ih hcut.2).1 fun k hk => ?_⟩
        have hnext := hstep (k + 1) (by rw [List.length_cons]; omega)
        rwa [hskip, hx, List.drop_left, List.drop_succ_cons] at hnext
      · intro hlen k hk
        rw [List.forall_mem_cons] at hlen
        cases k with
        | zero => rfl
        | succ k =>
            rw [hskip, hlen.1, List.drop_left, List.drop_succ_cons]
            exact (ih hcut.2).2 hlen.2 k (Nat.le_of_succ_le_succ hk)

/-! ### A second parser -/

/-- A second parser that takes every item of the first for one of the same length reads the items of
the first, and goes on where the first one stops. -/
theorem read_of_agree {A' E' : Type*} {q : Framer B A' E'} {good : A → Prop} {image : A → A'}
    (hcut : ∀ buf a n, p.cut buf = .item a n → good a → q.cut buf = .item (image a) n)
    (buf : List B) (hgood : ∀ a ∈ (p.read buf).items, good a) :
    q.read buf = (q.read (p.read buf).buffer).prepend ((p.read buf).items.map image) := by
  induction buf using @read_induction _ _ _ p with
  | more buf h =>
      rw [read_of_more h]
      rfl
  | fail buf e h =>
      rw [read_of_fail h]
      rfl
  | item buf a n h ih =>
      rw [read_of_item h] at hgood ⊢
      have ha : good a := hgood a List.mem_cons_self
      rw [read_of_item (hcut buf a n h ha), ih fun a' ha' => hgood a' (List.mem_cons_of_mem _ ha')]
      rfl

/-- A parser that stops waits for more bytes, or has found a fault. -/
theorem cut_buffer (buf : List B) :
    (p.cut (p.read buf).buffer = .more ∧ (p.read buf).error = none) ∨
      ∃ e, p.cut (p.read buf).buffer = .fail e ∧ (p.read buf).error = some e := by
  induction buf using @read_induction _ _ _ p with
  | more buf h =>
      rw [read_of_more h]
      exact Or.inl ⟨h, rfl⟩
  | fail buf e h =>
      rw [read_of_fail h]
      exact Or.inr ⟨e, h, rfl⟩
  | item buf a n h ih =>
      rw [read_of_item h]
      exact ih

end Framer
