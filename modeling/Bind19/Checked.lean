/-
**Arithmetic and slices that can fault.**

A program that computes with machine words and array slices stops with a fault where the
mathematical operation has no answer: a sum that does not fit in a word, a difference below zero, a
slice that leaves the array, a copy between lengths that differ.  Each operation is given here with
its fault as the error case, so that a computation that succeeds is one in which no fault occurred.

Main definitions:

* `Bind19.Checked.Fault` — the faults;
* `Bind19.Checked.add`, `Bind19.Checked.sub` — the sum and the difference of two words;
* `Bind19.Checked.slice`, `Bind19.Checked.copyFromSlice` — a range of an array, and an array filled
  from one.

Main results:

* `Bind19.Checked.bind_of_eq_ok`, `Bind19.Checked.bind_of_eq_error` — running a computation step by
  step;
* `Bind19.Checked.add_of_lt`, `Bind19.Checked.add_of_le`, `Bind19.Checked.isOk_sub_iff` — when the
  arithmetic succeeds;
* `Bind19.Checked.copyFromSlice_slice` — a range of the right length inside the array is copied.
-/

import Mathlib.Data.Nat.Basic
import Mathlib.Tactic.Ring

set_option relaxedAutoImplicit false
set_option autoImplicit false

namespace Bind19.Checked

/-- Why a computation stops. -/
inductive Fault where
  | overflow
  | outOfRange
  | lengthMismatch
deriving DecidableEq, Repr

/-- A step that succeeds hands its result to the next one. -/
theorem bind_of_eq_ok {β γ : Type} {x : Except Fault β} {b : β} (h : x = .ok b)
    (f : β → Except Fault γ) : (x >>= f) = f b := by
  rw [h]
  rfl

/-- A step that fails ends the computation. -/
theorem bind_of_eq_error {β γ : Type} {x : Except Fault β} {e : Fault} (h : x = .error e)
    (f : β → Except Fault γ) : (x >>= f) = .error e := by
  rw [h]
  rfl

/-! ### Words -/

/-- The sum of two words of `w` bits. -/
def add (w a b : ℕ) : Except Fault ℕ :=
  if a + b < 2 ^ w then .ok (a + b) else .error .overflow

/-- The difference of two unsigned words. -/
def sub (a b : ℕ) : Except Fault ℕ :=
  if b ≤ a then .ok (a - b) else .error .overflow

theorem add_of_lt {w a b : ℕ} (h : a + b < 2 ^ w) : add w a b = .ok (a + b) := if_pos h

theorem add_of_le {w a b : ℕ} (h : 2 ^ w ≤ a + b) : add w a b = .error .overflow :=
  if_neg (Nat.not_lt.2 h)

theorem sub_of_le {a b : ℕ} (h : b ≤ a) : sub a b = .ok (a - b) := if_pos h

theorem isOk_sub_iff {a b : ℕ} : (sub a b).isOk = true ↔ b ≤ a := by
  unfold sub
  split
  · rename_i h
    exact iff_of_true rfl h
  · rename_i h
    exact iff_of_false Bool.false_ne_true h

/-- Differences of words that differ by the same amount are the same, or both below zero. -/
theorem sub_congr {a b c d : ℕ} (h : b + c = a + d) : sub a b = sub c d := by
  by_cases hle : b ≤ a
  · have hdiff : a - b = c - d := by omega
    rw [sub_of_le hle, sub_of_le (by omega), hdiff]
  · rw [sub, sub, if_neg hle, if_neg (by omega)]

/-! ### Slices -/

variable {α : Type}

/-- The elements from `start` up to `stop`. -/
def slice (xs : List α) (start stop : ℕ) : Except Fault (List α) :=
  if start ≤ stop ∧ stop ≤ xs.length then .ok ((xs.drop start).take (stop - start))
  else .error .outOfRange

/-- An array of `n` elements filled from `src`. -/
def copyFromSlice (n : ℕ) (src : List α) : Except Fault (Vector α n) :=
  if h : src.length = n then .ok ⟨src.toArray, h⟩ else .error .lengthMismatch

theorem slice_of_le {xs : List α} {start n : ℕ} (h : start + n ≤ xs.length) :
    slice xs start (start + n) = .ok ((xs.drop start).take n) := by
  rw [slice, if_pos ⟨Nat.le_add_right start n, h⟩, Nat.add_sub_cancel_left]

theorem copyFromSlice_toList {n : ℕ} (v : Vector α n) : copyFromSlice n v.toList = .ok v :=
  dif_pos Vector.length_toList

/-- The elements that an array holds in the range are copied. -/
theorem copyFromSlice_slice {xs : List α} {start n : ℕ} (h : start + n ≤ xs.length)
    {v : Vector α n} (hv : v.toList = (xs.drop start).take n) :
    (slice xs start (start + n) >>= copyFromSlice n) = .ok v := by
  rw [bind_of_eq_ok (slice_of_le h), ← hv]
  exact copyFromSlice_toList v

end Bind19.Checked
