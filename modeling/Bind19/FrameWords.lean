/-
**The parser on machine words.**

`Bind19.BindFrame.decode` computes lengths and offsets with natural numbers.  The source computes
them with words of 32 or of 64 bits, and every sum, every slice and every copy it makes stops the
program when it does not fit.  The parser is written once more here with these operations, line by
line, and compared with the first.

On 64 bits no operation can fail.  On 32 bits exactly one can: the total length is summed up before
the declared payload length is compared with the 64 MB limit, so a header that declares almost 4 GB
stops the parser.  All slices and copies are safe, because the one comparison with the total covers
them.

Main definitions:

* `Bind19.WordSize` — the two word sizes;
* `Bind19.BindFrame.decodeChecked` — the parser with its faults;
* `Bind19.BindFrame.LengthFits` — the declared length leaves room for the header and the layers.

Main results:

* `Bind19.BindFrame.decodePfpChecked_eq`, `Bind19.BindFrame.decodeSapChecked_eq` — the layers are
  read without a fault as soon as the buffer covers them;
* `Bind19.BindFrame.decodeChecked_eq_ok_iff` — when the parser runs without a fault, and what it
  answers then.
-/

import Bind19.Checked
import Bind19.FrameStability

set_option relaxedAutoImplicit false
set_option autoImplicit false

namespace Bind19

open ByteLayout Checked

/-! ### The operations of the source -/

/-- The size of a machine word. -/
inductive WordSize where
  | bits32
  | bits64
deriving DecidableEq, Repr

def WordSize.bits : WordSize → ℕ
  | bits32 => 32
  | bits64 => 64

/-- A buffer of `n` bytes filled from `buf[start..stop]`. -/
def copyRange (n : ℕ) (buf : List UInt8) (start stop : ℕ) : Except Fault (Vector UInt8 n) :=
  Checked.slice buf start stop >>= copyFromSlice n

/-- The length of the layers the flags announce. -/
def BindHeader.extensionLengthChecked (w : WordSize) (h : BindHeader) : Except Fault ℕ := do
  let len := 0
  let len ← (if h.hasPfp then add w.bits len pfpSize else .ok len)
  if h.hasSap then add w.bits len sapSize else .ok len

/-- The SAP header read from its bytes. -/
def SapHeader.decodeChecked (w : WordSize) (buf : Vector UInt8 sapSize) :
    Except Fault SapHeader := do
  let sapVersion := buf.get 3 &&& 0b1111
  let seqCounter := UInt16.ofNat (ofBeBytes [buf.get 4, buf.get 5])
  let hashEnd ← add w.bits 6 pahSize
  let pahHash ← copyRange pahSize buf.toList 6 hashEnd
  let signatureEnd ← add w.bits hashEnd sigSize
  let pahSignature ← copyRange sigSize buf.toList hashEnd signatureEnd
  return { sapVersion, seqCounter, pahHash, pahSignature }

namespace BindFrame

/-- The parser's second stage: the PFP layer, if announced, and the offset after it. -/
def decodePfpChecked (w : WordSize) (header : BindHeader) (buf : List UInt8) (offset : ℕ) :
    Except Fault (Except FrameError (Option PfpHeader × ℕ)) :=
  if header.hasPfp then do
    let stop ← add w.bits offset pfpSize
    let pfpArray ← copyRange pfpSize buf offset stop
    if !PfpHeader.verifyMagic pfpArray then
      return .error .invalidPfpMagic
    else
      let offset ← add w.bits offset pfpSize
      return .ok (some (PfpHeader.decode pfpArray), offset)
  else
    return .ok (none, offset)

/-- The parser's third stage: the SAP layer, if announced, and the offset after it. -/
def decodeSapChecked (w : WordSize) (header : BindHeader) (buf : List UInt8) (offset : ℕ) :
    Except Fault (Except FrameError (Option SapHeader × ℕ)) :=
  if header.hasSap then do
    let stop ← add w.bits offset sapSize
    let sapArray ← copyRange sapSize buf offset stop
    if !SapHeader.verifyMagic sapArray then
      return .error .invalidSapMagic
    else if !SapHeader.verifyProtocolId sapArray then
      return .error .invalidSapProtocolId
    else
      let offset ← add w.bits offset sapSize
      let sap ← SapHeader.decodeChecked w sapArray
      return .ok (some sap, offset)
  else
    return .ok (none, offset)

/-- What the parser does with a complete frame within the limit. -/
def decodeLayersChecked (w : WordSize) (header : BindHeader) (buf : List UInt8) :
    Except Fault (Except FrameError BindFrame) := do
  match ← decodePfpChecked w header buf headerSize with
  | .error e => return .error e
  | .ok (pfp, offset) =>
    match ← decodeSapChecked w header buf offset with
    | .error e => return .error e
    | .ok (sap, offset) =>
      let stop ← add w.bits offset header.payloadLength.toNat
      let payload ← Checked.slice buf offset stop
      return .ok { header, pfp, sap, payload }

/-- The parser: the header, the length checks, then layer by layer. -/
def decodeChecked (w : WordSize) (buf : List UInt8) : Except Fault (Except FrameError BindFrame) :=
  if buf.length < headerSize then
    return .error .incompleteHeader
  else do
    let headerArray ← copyRange headerSize buf 0 headerSize
    let header := BindHeader.decode headerArray
    let extLen ← header.extensionLengthChecked w
    let layersEnd ← add w.bits headerSize extLen
    let totalNeeded ← add w.bits layersEnd header.payloadLength.toNat
    if buf.length < totalNeeded then
      return .error .incompleteFrame
    else if header.payloadLength.toNat > maxPayloadSize then
      return .error .bufferOverflow
    else
      decodeLayersChecked w header buf

end BindFrame

/-! ### One operation at a time -/

/-- The header and both layers fit in a word, whatever its size. -/
theorem WordSize.layers_lt (w : WordSize) : headerSize + (pfpSize + sapSize) < 2 ^ w.bits := by
  cases w <;> decide

/-- A range that the buffer covers is read as the array of its bytes. -/
theorem copyRange_eq {n start : ℕ} {buf : List UInt8} (h : start + n ≤ buf.length) :
    copyRange n buf start (start + n) = .ok (readArray n buf start) :=
  copyFromSlice_slice h (toList_readArray h)

theorem BindHeader.extensionLength_le (h : BindHeader) :
    h.extensionLength ≤ pfpSize + sapSize := by
  rw [h.extensionLength_eq]
  cases h.hasPfp <;> cases h.hasSap <;> decide

theorem BindHeader.extensionLengthChecked_eq (w : WordSize) (h : BindHeader) :
    h.extensionLengthChecked w = .ok h.extensionLength := by
  have hw : ∀ n, n ≤ pfpSize + sapSize → n < 2 ^ w.bits := fun n hn =>
    Nat.lt_of_le_of_lt (Nat.le_trans hn (Nat.le_add_left _ _)) w.layers_lt
  have hpfp : add w.bits 0 pfpSize = .ok (0 + pfpSize) := add_of_lt (hw _ (by decide))
  have hsap : ∀ len, len ≤ pfpSize → add w.bits len sapSize = .ok (len + sapSize) :=
    fun len hlen => add_of_lt (hw _ (Nat.add_le_add_right hlen _))
  unfold extensionLengthChecked extensionLength
  cases h.hasPfp <;> cases h.hasSap
  · rfl
  · exact hsap 0 (by decide)
  · exact bind_of_eq_ok hpfp _
  · exact (bind_of_eq_ok hpfp _).trans (hsap (0 + pfpSize) (by decide))

/-- The slices of the SAP header's bytes lie inside them. -/
theorem SapHeader.decodeChecked_eq (w : WordSize) (buf : Vector UInt8 sapSize) :
    decodeChecked w buf = .ok (decode buf) := by
  have hlen : buf.toList.length = 6 + pahSize + sigSize := Vector.length_toList
  have hend : add w.bits 6 pahSize = .ok (6 + pahSize) := add_of_lt (by cases w <;> decide)
  have hend' : add w.bits (6 + pahSize) sigSize = .ok (6 + pahSize + sigSize) :=
    add_of_lt (by cases w <;> decide)
  have hhash : copyRange pahSize buf.toList 6 (6 + pahSize)
      = .ok (readArray pahSize buf.toList 6) := copyRange_eq (by omega)
  have hsig : copyRange sigSize buf.toList (6 + pahSize) (6 + pahSize + sigSize)
      = .ok (readArray sigSize buf.toList (6 + pahSize)) := copyRange_eq (by omega)
  rw [decodeChecked, bind_of_eq_ok hend, bind_of_eq_ok hhash, bind_of_eq_ok hend',
    bind_of_eq_ok hsig]
  rfl

namespace BindFrame

variable {w : WordSize} {header : BindHeader} {buf : List UInt8} {offset : ℕ}

/-- The second stage runs without a fault on a buffer that covers the layer. -/
theorem decodePfpChecked_eq (hw : header.hasPfp = true → offset + pfpSize < 2 ^ w.bits)
    (hlen : header.hasPfp = true → offset + pfpSize ≤ buf.length) :
    decodePfpChecked w header buf offset = .ok (decodePfp header buf offset) := by
  unfold decodePfpChecked decodePfp
  by_cases hp : header.hasPfp = true
  · have hadd : add w.bits offset pfpSize = .ok (offset + pfpSize) := add_of_lt (hw hp)
    rw [if_pos hp, if_pos hp, bind_of_eq_ok hadd, bind_of_eq_ok (copyRange_eq (hlen hp))]
    dsimp only
    split
    · rfl
    · exact bind_of_eq_ok hadd _
  · rw [if_neg hp, if_neg hp]
    rfl

/-- The third stage runs without a fault on a buffer that covers the layer. -/
theorem decodeSapChecked_eq (hw : header.hasSap = true → offset + sapSize < 2 ^ w.bits)
    (hlen : header.hasSap = true → offset + sapSize ≤ buf.length) :
    decodeSapChecked w header buf offset = .ok (decodeSap header buf offset) := by
  unfold decodeSapChecked decodeSap
  by_cases hs : header.hasSap = true
  · have hadd : add w.bits offset sapSize = .ok (offset + sapSize) := add_of_lt (hw hs)
    rw [if_pos hs, if_pos hs, bind_of_eq_ok hadd, bind_of_eq_ok (copyRange_eq (hlen hs))]
    dsimp only
    split
    · rfl
    · split
      · rfl
      · rw [bind_of_eq_ok hadd, bind_of_eq_ok (SapHeader.decodeChecked_eq w _)]
        rfl
  · rw [if_neg hs, if_neg hs]
    rfl

/-- The layers and the payload of a complete frame whose total length fits in a word are read
without a fault. -/
theorem decodeLayersChecked_eq (hw : header.totalFrameLength < 2 ^ w.bits)
    (hlen : header.totalFrameLength ≤ buf.length) :
    decodeLayersChecked w header buf = .ok (decodeLayers header buf) := by
  have htotal := header.totalFrameLength_eq
  have hpfp : header.hasPfp = true → headerSize + pfpSize ≤ header.totalFrameLength := by
    intro hp
    rw [if_pos hp] at htotal
    omega
  have hpfpEq : decodePfpChecked w header buf headerSize
      = .ok (decodePfp header buf headerSize) :=
    decodePfpChecked_eq (fun hp => Nat.lt_of_le_of_lt (hpfp hp) hw)
      (fun hp => Nat.le_trans (hpfp hp) hlen)
  rw [decodeLayersChecked, bind_of_eq_ok hpfpEq, decodeLayers]
  cases hdec : decodePfp header buf headerSize with
  | error e => rfl
  | ok res =>
      obtain ⟨pfp, offset⟩ := res
      have hoffset := offset_of_decodePfp hdec
      have hsap : header.hasSap = true → offset + sapSize ≤ header.totalFrameLength := by
        intro hs
        rw [if_pos hs] at htotal
        omega
      have hsapEq : decodeSapChecked w header buf offset = .ok (decodeSap header buf offset) :=
        decodeSapChecked_eq (fun hs => Nat.lt_of_le_of_lt (hsap hs) hw)
          (fun hs => Nat.le_trans (hsap hs) hlen)
      dsimp only
      rw [bind_of_eq_ok hsapEq]
      cases hdec' : decodeSap header buf offset with
      | error e => rfl
      | ok res' =>
          obtain ⟨sap, offset'⟩ := res'
          have hoffset' := offset_of_decodeSap hdec'
          have hend : offset' + header.payloadLength.toNat = header.totalFrameLength := by omega
          have hadd : add w.bits offset' header.payloadLength.toNat
              = .ok (offset' + header.payloadLength.toNat) := add_of_lt (by omega)
          dsimp only
          rw [bind_of_eq_ok hadd, bind_of_eq_ok (slice_of_le (by omega))]
          rfl

/-! ### The whole parser -/

theorem decodeChecked_of_length_lt (h : buf.length < headerSize) :
    decodeChecked w buf = .ok (decode buf) := by
  rw [decodeChecked, if_pos h, decode, if_pos h]
  rfl

/-- The sums that the parser forms before it compares anything: only the last one can fail. -/
theorem decodeChecked_eq_bind (h : headerSize ≤ buf.length) :
    decodeChecked w buf =
      add w.bits (headerSize + (announcedHeader buf).extensionLength)
        (announcedHeader buf).payloadLength.toNat >>= fun totalNeeded =>
      if buf.length < totalNeeded then .ok (.error .incompleteFrame)
      else if (announcedHeader buf).payloadLength.toNat > maxPayloadSize then
        .ok (.error .bufferOverflow)
      else decodeLayersChecked w (announcedHeader buf) buf := by
  have hheader : copyRange headerSize buf 0 (0 + headerSize)
      = .ok (readArray headerSize buf 0) := copyRange_eq (by omega)
  rw [Nat.zero_add] at hheader
  have hlayers : add w.bits headerSize (announcedHeader buf).extensionLength
      = .ok (headerSize + (announcedHeader buf).extensionLength) :=
    add_of_lt (Nat.lt_of_le_of_lt
      (Nat.add_le_add_left (announcedHeader buf).extensionLength_le _) w.layers_lt)
  rw [decodeChecked, if_neg (Nat.not_lt.2 h), bind_of_eq_ok hheader]
  dsimp only
  rw [bind_of_eq_ok (BindHeader.extensionLengthChecked_eq w _)]
  exact bind_of_eq_ok hlayers _

/-- Where the total length fits in a word, the parser runs without a fault. -/
theorem decodeChecked_of_lt (h : headerSize ≤ buf.length)
    (hw : (announcedHeader buf).totalFrameLength < 2 ^ w.bits) :
    decodeChecked w buf = .ok (decode buf) := by
  rw [decodeChecked_eq_bind h, bind_of_eq_ok (add_of_lt hw), decode_eq_decodeLayers h]
  change (if buf.length < (announcedHeader buf).totalFrameLength then _ else _) = _
  split
  · rfl
  · rename_i hlen
    split
    · rfl
    · exact decodeLayersChecked_eq hw (Nat.not_lt.1 hlen)

/-- Where it does not, the sum faults. -/
theorem decodeChecked_of_le (h : headerSize ≤ buf.length)
    (hw : 2 ^ w.bits ≤ (announcedHeader buf).totalFrameLength) :
    decodeChecked w buf = .error .overflow := by
  rw [decodeChecked_eq_bind h]
  exact bind_of_eq_error (add_of_le hw) _

/-- The words can hold the declared length together with the header and the layers, or the parser
does not get to see it. -/
def LengthFits (w : WordSize) (buf : List UInt8) : Prop :=
  w = .bits64 ∨ buf.length < headerSize ∨
    (announcedHeader buf).payloadLength.toNat
      < 2 ^ 32 - (headerSize + (announcedHeader buf).extensionLength)

theorem totalFrameLength_lt_iff (w : WordSize) (header : BindHeader) :
    header.totalFrameLength < 2 ^ w.bits ↔ w = .bits64 ∨
      header.payloadLength.toNat < 2 ^ 32 - (headerSize + header.extensionLength) := by
  have hpayload := header.payloadLength.toNat_lt
  have hext := header.extensionLength_le
  rw [BindHeader.totalFrameLength]
  generalize header.extensionLength = extLen at *
  cases w with
  | bits32 =>
      refine ⟨fun h => Or.inr ?_, fun h => ?_⟩
      · exact Nat.lt_sub_iff_add_lt'.2 h
      · exact Nat.lt_sub_iff_add_lt'.1 (h.resolve_left (by decide))
  | bits64 =>
      refine iff_of_true ?_ (Or.inl rfl)
      exact Nat.lt_of_lt_of_le (Nat.add_lt_add_of_le_of_lt (Nat.add_le_add_left hext _) hpayload)
        (by decide)

theorem lengthFits_iff (h : headerSize ≤ buf.length) :
    LengthFits w buf ↔ (announcedHeader buf).totalFrameLength < 2 ^ w.bits := by
  rw [totalFrameLength_lt_iff, LengthFits]
  exact or_congr_right (or_iff_right (Nat.not_lt.2 h))

/-- The parser runs without a fault exactly where the declared length fits.  It answers then what
the parser on natural numbers answers, and the only fault it ever has is the sum of the lengths: its
slices and its copies are safe. -/
theorem decodeChecked_eq_ok_iff (w : WordSize) (buf : List UInt8) :
    ((∃ r, decodeChecked w buf = .ok r) ↔ LengthFits w buf) ∧
      (∀ r, decodeChecked w buf = .ok r → r = decode buf) ∧
      ∀ fault, decodeChecked w buf = .error fault → fault = .overflow := by
  have hok (hfits : LengthFits w buf) : decodeChecked w buf = .ok (decode buf) := by
    by_cases hlen : buf.length < headerSize
    · exact decodeChecked_of_length_lt hlen
    · exact decodeChecked_of_lt (Nat.not_lt.1 hlen) ((lengthFits_iff (Nat.not_lt.1 hlen)).1 hfits)
  have herror (hfits : ¬LengthFits w buf) : decodeChecked w buf = .error .overflow := by
    have hlen : headerSize ≤ buf.length := Nat.not_lt.1 fun h => hfits (Or.inr (Or.inl h))
    exact decodeChecked_of_le hlen (Nat.not_lt.1 fun h => hfits ((lengthFits_iff hlen).2 h))
  by_cases hfits : LengthFits w buf
  · rw [hok hfits]
    refine ⟨iff_of_true ⟨_, rfl⟩ hfits, ?_, ?_⟩
    · intro r hr
      exact (Except.ok.inj hr).symm
    · intro fault hfault
      cases hfault
  · rw [herror hfits]
    refine ⟨iff_of_false ?_ hfits, ?_, ?_⟩
    · rintro ⟨r, hr⟩
      cases hr
    · intro r hr
      cases hr
    · intro fault hfault
      exact (Except.error.inj hfault).symm

/-- A header that declares the longest payload a length field can declare. -/
def longestHeader : List UInt8 := [0x01, 0x00, 0x00, 0x00, 0xFF, 0xFF, 0xFF, 0xFF]

/-- On 32 bits these eight bytes stop the parser. -/
theorem decodeChecked_longestHeader :
    decodeChecked .bits32 longestHeader = .error .overflow ∧
      ¬∃ r, decodeChecked .bits32 longestHeader = .ok r := by
  have hfault : decodeChecked .bits32 longestHeader = .error .overflow :=
    decodeChecked_of_le (by decide) (by decide)
  refine ⟨hfault, ?_⟩
  rintro ⟨r, hr⟩
  rw [hfault] at hr
  cases hr

end BindFrame

end Bind19
