/-
**Byte strings with a fixed layout.**

Wire formats and hashed records are laid out the same way: fields of a known width stand one after
the other, integers are written byte by byte in one of the two orders, and a reader takes each
field at the offset its predecessors leave.  This module collects the two facts such a layout rests
on: an integer is recovered from its bytes, and a field is recovered from the byte string it was
written into, whatever stands before and after it.

Main definitions:

* `ByteLayout.leBytes`, `ByteLayout.beBytes` — the `k` bytes of a number, least or most
  significant first, and `ByteLayout.ofLeBytes`, `ByteLayout.ofBeBytes`, the numbers they are the
  bytes of;
* `ByteLayout.slice`, `ByteLayout.readArray` — the bytes of a field at an offset, as a list and as
  a vector.

Main results:

* `ByteLayout.ofBeBytes_beBytes`, `ByteLayout.leBytes_inj` — integers survive the byte order;
* `ByteLayout.readArray_append`, `ByteLayout.slice_append` — a field is read back where it was
  written, and `ByteLayout.readArray_append_left`: what is appended later does not change it;
* `ByteLayout.AgreeOn.readArray_eq`, `ByteLayout.AgreeOn.slice_eq` — byte strings that agree on a
  stretch have the same fields there.
-/

import Mathlib.Data.Nat.Basic
import Mathlib.Data.List.Basic
import Mathlib.Tactic.Ring

set_option relaxedAutoImplicit false
set_option autoImplicit false

namespace ByteLayout

/-! ### Integers as bytes -/

/-- The `k` low bytes of a number, least significant first. -/
def leBytes : ℕ → ℕ → List UInt8
  | 0, _ => []
  | k + 1, n => UInt8.ofNat n :: leBytes k (n / 256)

/-- The number whose bytes are given, least significant first. -/
def ofLeBytes : List UInt8 → ℕ
  | [] => 0
  | b :: bs => b.toNat + 256 * ofLeBytes bs

/-- The `k` low bytes of a number, most significant first. -/
def beBytes (k n : ℕ) : List UInt8 := (leBytes k n).reverse

/-- The number whose bytes are given, most significant first. -/
def ofBeBytes (bs : List UInt8) : ℕ := ofLeBytes bs.reverse

@[simp] theorem length_leBytes (k n : ℕ) : (leBytes k n).length = k := by
  induction k generalizing n with
  | zero => rfl
  | succ k ih => simp [leBytes, ih]

@[simp] theorem length_beBytes (k n : ℕ) : (beBytes k n).length = k := by
  simp [beBytes]

theorem ofLeBytes_leBytes {k n : ℕ} (h : n < 256 ^ k) : ofLeBytes (leBytes k n) = n := by
  induction k generalizing n with
  | zero =>
      have : n = 0 := by simpa using h
      simp [leBytes, ofLeBytes, this]
  | succ k ih =>
      have hdiv : n / 256 < 256 ^ k := by
        rw [pow_succ] at h
        exact Nat.div_lt_of_lt_mul (by omega)
      simp only [leBytes, ofLeBytes, UInt8.toNat_ofNat', ih hdiv]
      omega

/-- A number is recovered from its bytes. -/
theorem ofBeBytes_beBytes {k n : ℕ} (h : n < 256 ^ k) : ofBeBytes (beBytes k n) = n := by
  rw [ofBeBytes, beBytes, List.reverse_reverse, ofLeBytes_leBytes h]

theorem leBytes_ofLeBytes (bs : List UInt8) : leBytes bs.length (ofLeBytes bs) = bs := by
  induction bs with
  | nil => rfl
  | cons b bs ih =>
      have hb := b.toNat_lt
      have hlow : UInt8.ofNat (b.toNat + 256 * ofLeBytes bs) = b := by
        refine UInt8.toNat_inj.1 ?_
        rw [UInt8.toNat_ofNat']
        omega
      have hhigh : (b.toNat + 256 * ofLeBytes bs) / 256 = ofLeBytes bs := by omega
      rw [List.length_cons, ofLeBytes, leBytes, hlow, hhigh, ih]

/-- The bytes of the number that some bytes stand for are these bytes. -/
theorem beBytes_ofBeBytes (bs : List UInt8) : beBytes bs.length (ofBeBytes bs) = bs := by
  have h := leBytes_ofLeBytes bs.reverse
  rw [List.length_reverse] at h
  rw [beBytes, ofBeBytes, h, List.reverse_reverse]

theorem ofLeBytes_lt (bs : List UInt8) : ofLeBytes bs < 256 ^ bs.length := by
  induction bs with
  | nil => simp [ofLeBytes]
  | cons b bs ih =>
      have hb := b.toNat_lt
      rw [List.length_cons, pow_succ, ofLeBytes]
      omega

theorem ofBeBytes_lt (bs : List UInt8) : ofBeBytes bs < 256 ^ bs.length := by
  have h := ofLeBytes_lt bs.reverse
  rwa [List.length_reverse] at h

/-- The four bytes of a word, most significant first. -/
def toBeBytes32 (x : UInt32) : Vector UInt8 4 := ⟨(beBytes 4 x.toNat).toArray, by simp⟩

@[simp] theorem toList_toBeBytes32 (x : UInt32) :
    (toBeBytes32 x).toList = beBytes 4 x.toNat := rfl

/-- Numbers that fit in `k` bytes have different bytes. -/
theorem leBytes_inj {k m n : ℕ} (hm : m < 256 ^ k) (hn : n < 256 ^ k)
    (h : leBytes k m = leBytes k n) : m = n := by
  rw [← ofLeBytes_leBytes hm, ← ofLeBytes_leBytes hn, h]

/-! ### Fields -/

/-- The `n` bytes of `buf` from `offset` on. -/
def slice (buf : List UInt8) (offset n : ℕ) : List UInt8 := (buf.drop offset).take n

/-- The `n` bytes of `buf` from `offset` on, copied into a zeroed array. -/
def readArray (n : ℕ) (buf : List UInt8) (offset : ℕ) : Vector UInt8 n :=
  Vector.ofFn fun i => buf.getD (offset + i) 0

@[simp] theorem getElem_readArray {n : ℕ} (buf : List UInt8) (offset i : ℕ) (h : i < n) :
    (readArray n buf offset)[i] = buf.getD (offset + i) 0 := by
  simp [readArray]

/-- A vector of four bytes as a list. -/
theorem toList_vector4 (v : Vector UInt8 4) : v.toList = [v[0], v[1], v[2], v[3]] := by
  refine List.ext_getElem (by simp) fun i hi _ => ?_
  rw [Vector.length_toList] at hi
  match i, hi with
  | 0, _ | 1, _ | 2, _ | 3, _ => rfl

/-- A field is read back where it was written. -/
theorem readArray_append {n : ℕ} (pre : List UInt8) (v : Vector UInt8 n) (post : List UInt8) :
    readArray n (pre ++ (v.toList ++ post)) pre.length = v := by
  refine Vector.ext fun i hi => ?_
  rw [getElem_readArray, List.getD_eq_getElem?_getD, List.getElem?_append_right (by omega),
    Nat.add_sub_cancel_left, List.getElem?_append_left (by simpa using hi)]
  simp [hi]

/-- What is appended past a field does not change it. -/
theorem readArray_append_left {n offset : ℕ} {buf : List UInt8} (t : List UInt8)
    (h : offset + n ≤ buf.length) : readArray n (buf ++ t) offset = readArray n buf offset := by
  refine Vector.ext fun i hi => ?_
  rw [getElem_readArray, getElem_readArray, List.getD_eq_getElem?_getD,
    List.getD_eq_getElem?_getD, List.getElem?_append_left (by omega)]

theorem length_slice {buf : List UInt8} {offset n : ℕ} (h : offset + n ≤ buf.length) :
    (slice buf offset n).length = n := by
  rw [slice, List.length_take, List.length_drop]
  omega

/-- A variable-length field is read back where it was written. -/
theorem slice_append (pre bs post : List UInt8) :
    slice (pre ++ (bs ++ post)) pre.length bs.length = bs := by
  simp [slice]

/-- A field that lies inside the byte string is the same as a list and as a vector. -/
theorem toList_readArray {n offset : ℕ} {buf : List UInt8} (h : offset + n ≤ buf.length) :
    (readArray n buf offset).toList = slice buf offset n := by
  refine List.ext_getElem (by rw [Vector.length_toList, length_slice h]) fun i hi _ => ?_
  rw [Vector.length_toList] at hi
  have hget : buf.getD (offset + i) 0 = buf[offset + i] := by
    rw [List.getD_eq_getElem?_getD, List.getElem?_eq_getElem (by omega)]
    rfl
  simp only [slice, List.getElem_take, List.getElem_drop, Vector.getElem_toList, getElem_readArray,
    hget]

/-! ### Byte strings that agree on a stretch -/

/-- Two byte strings agree from `lo` on, up to `hi`. -/
def AgreeOn (lo hi : ℕ) (buf buf' : List UInt8) : Prop := ∀ i, lo ≤ i → i < hi → buf'[i]? = buf[i]?

theorem agreeOn_append {hi : ℕ} {buf : List UInt8} (h : hi ≤ buf.length) (lo : ℕ)
    (t : List UInt8) : AgreeOn lo hi buf (buf ++ t) := by
  intro i _ hi'
  exact List.getElem?_append_left (by omega)

theorem agreeOn_of_drop_eq {lo : ℕ} {buf buf' : List UInt8} (h : buf'.drop lo = buf.drop lo)
    (hi : ℕ) : AgreeOn lo hi buf buf' := by
  intro i hlo _
  have hget : (buf'.drop lo)[i - lo]? = (buf.drop lo)[i - lo]? := by rw [h]
  rwa [List.getElem?_drop, List.getElem?_drop, Nat.add_sub_cancel' hlo] at hget

section

variable {lo hi offset n : ℕ} {buf buf' : List UInt8}

/-- What is read on the stretch is the same. -/
theorem AgreeOn.readArray_eq (h : AgreeOn lo hi buf buf') (hlo : lo ≤ offset)
    (hhi : offset + n ≤ hi) : readArray n buf' offset = readArray n buf offset := by
  refine Vector.ext fun i hi' => ?_
  rw [getElem_readArray, getElem_readArray, List.getD_eq_getElem?_getD,
    List.getD_eq_getElem?_getD, h (offset + i) (by omega) (by omega)]

theorem AgreeOn.slice_eq (h : AgreeOn lo hi buf buf') (hlo : lo ≤ offset)
    (hhi : offset + n ≤ hi) : slice buf' offset n = slice buf offset n := by
  refine List.ext_getElem? fun i => ?_
  rw [slice, slice, List.getElem?_take, List.getElem?_take, List.getElem?_drop, List.getElem?_drop]
  split
  · exact h (offset + i) (by omega) (by omega)
  · rfl

end

/-! ### Masked bytes -/

/-- The byte string with some bits of its byte `i` cleared. -/
def maskByte (i : ℕ) (mask : UInt8) (bs : List UInt8) : List UInt8 := bs.modify i (· &&& mask)

@[simp] theorem maskByte_nil (i : ℕ) (mask : UInt8) : maskByte i mask [] = [] :=
  List.modify_nil _ i

theorem maskByte_append_left {i : ℕ} {bs : List UInt8} (h : i < bs.length) (mask : UInt8)
    (post : List UInt8) : maskByte i mask (bs ++ post) = maskByte i mask bs ++ post := by
  induction bs generalizing i with
  | nil => simp at h
  | cons b bs ih =>
      cases i with
      | zero => simp [maskByte]
      | succ i =>
          have hi : i < bs.length := by simpa using h
          have := ih hi
          simp only [maskByte] at this
          simp [maskByte, this]

theorem maskByte_append_right {n : ℕ} {pre : List UInt8} (h : pre.length = n) (i : ℕ) (mask : UInt8)
    (bs : List UInt8) : maskByte (n + i) mask (pre ++ bs) = pre ++ maskByte i mask bs := by
  subst h
  induction pre with
  | nil => simp [maskByte]
  | cons b pre ih =>
      simp only [maskByte] at ih
      rw [List.length_cons, Nat.succ_add, maskByte, List.cons_append, List.modify_succ_cons, ih]
      rfl

end ByteLayout
