/-
**The security attestation layer SAP-xCF14.**

Twenty-eight bytes at fixed offsets: the family magic, a protocol id, the version in the low half of
a byte, the sequence counter that the replay check reads, a truncated context hash and a truncated
signature.  The encoder clears the upper half of the version byte and the decoder drops it, so the
two are inverse to each other exactly on headers whose version fits in four bits.

Main definitions:

* `Bind19.SapHeader`, `Bind19.SapHeader.encode`, `Bind19.SapHeader.decode`;
* `Bind19.SapHeader.incrementSeq`, `Bind19.SapHeader.needsKeyRotation` — the sequence counter,
  which wraps around, and the threshold at which the key has to be rotated.

Main results:

* `Bind19.SapHeader.decode_encode`, `Bind19.SapHeader.verifyMagic_encode`,
  `Bind19.SapHeader.verifyProtocolId_encode`;
* `Bind19.SapHeader.incrementSeq_lt` — the counter grows except at its largest value.
-/

import Bind19.Pfp

set_option relaxedAutoImplicit false
set_option autoImplicit false

namespace Bind19

open ByteLayout

/-! ### Constants -/

/-- The length of a SAP header in bytes. -/
abbrev sapSize : ℕ := 28

/-- The protocol id of SAP. -/
def sapProtocolId : UInt8 := 0x01

/-- The current version of SAP. -/
def sapVersionCurrent : UInt8 := 0b0001

/-- The length of the truncated context hash in bytes. -/
abbrev pahSize : ℕ := 14

/-- The length of the truncated signature in bytes. -/
abbrev sigSize : ℕ := 8

/-- The counter value from which on the key has to be rotated. -/
def seqRotationThreshold : UInt16 := 65534

/-! ### The header -/

/-- The security attestation header. -/
structure SapHeader where
  sapVersion : UInt8
  seqCounter : UInt16
  pahHash : Vector UInt8 pahSize
  pahSignature : Vector UInt8 sigSize
deriving DecidableEq, Repr

namespace SapHeader

/-- A header of the current version. -/
def new (seqCounter : UInt16) (pahHash : Vector UInt8 pahSize)
    (pahSignature : Vector UInt8 sigSize) : SapHeader :=
  { sapVersion := sapVersionCurrent, seqCounter, pahHash, pahSignature }

/-- The six bytes before the context hash. -/
def prelude (h : SapHeader) : Vector UInt8 6 :=
  #v[(familyMagic >>> 8).toUInt8, (familyMagic &&& 0xFF).toUInt8, sapProtocolId,
    h.sapVersion &&& 0b1111, (h.seqCounter >>> 8).toUInt8, (h.seqCounter &&& 0xFF).toUInt8]

/-- The header as twenty-eight bytes. -/
def encode (h : SapHeader) : Vector UInt8 sapSize :=
  (h.prelude ++ h.pahHash ++ h.pahSignature).cast (by decide)

/-- The header read from twenty-eight bytes.  Magic and protocol id are the caller's to check. -/
def decode (buf : Vector UInt8 sapSize) : SapHeader :=
  { sapVersion := buf[3] &&& 0b1111
    seqCounter := UInt16.ofNat (ofBeBytes [buf[4], buf[5]])
    pahHash := readArray pahSize buf.toList 6
    pahSignature := readArray sigSize buf.toList (6 + pahSize) }

/-- Whether the bytes start with the family magic. -/
def verifyMagic (buf : Vector UInt8 sapSize) : Bool :=
  UInt16.ofNat (ofBeBytes [buf[0], buf[1]]) == familyMagic

/-- Whether the bytes carry the protocol id of SAP. -/
def verifyProtocolId (buf : Vector UInt8 sapSize) : Bool := buf[2] == sapProtocolId

/-- Whether the counter has reached the rotation threshold. -/
def needsKeyRotation (h : SapHeader) : Bool := seqRotationThreshold ≤ h.seqCounter

/-- The next counter value, and the header that carries it. -/
def incrementSeq (h : SapHeader) : UInt16 × SapHeader :=
  (h.seqCounter + 1, { h with seqCounter := h.seqCounter + 1 })

/-! ### Encoding and decoding -/

theorem toList_encode (h : SapHeader) :
    h.encode.toList = h.prelude.toList ++ (h.pahHash.toList ++ h.pahSignature.toList) := by
  rw [encode, Vector.toList_cast, Vector.toList_append, Vector.toList_append, List.append_assoc]

/-- The first six bytes of the encoding. -/
theorem getElem_encode_prelude (h : SapHeader) {i : ℕ} (hi : i < 6) (hs : i < sapSize) :
    h.encode[i] = h.prelude[i] := by
  simp only [encode, Vector.getElem_cast]
  rw [Vector.getElem_append_left (by omega), Vector.getElem_append_left hi]

/-- The two bytes a counter is written as. -/
theorem counterBytes_eq (n : UInt16) :
    [(n >>> 8).toUInt8, (n &&& 0xFF).toUInt8] = beBytes 2 n.toNat := by
  have hhi : (n >>> 8).toUInt8 = UInt8.ofNat (n.toNat / 256) := by
    refine UInt8.toNat_inj.1 ?_
    simp [Nat.shiftRight_eq_div_pow]
  have hlo : (n &&& 0xFF).toUInt8 = UInt8.ofNat n.toNat := by
    refine UInt8.toNat_inj.1 ?_
    have hlow : n.toNat &&& 255 = n.toNat % 256 := Nat.and_two_pow_sub_one_eq_mod n.toNat 8
    rw [UInt16.toNat_toUInt8, UInt16.toNat_and, UInt8.toNat_ofNat']
    change (n.toNat &&& 255) % 256 = n.toNat % 256
    rw [hlow, Nat.mod_mod]
  rw [hhi, hlo]
  rfl

/-- A sixteen-bit counter is recovered from its high and its low byte. -/
theorem ofBeBytes_counter (n : UInt16) :
    UInt16.ofNat (ofBeBytes [(n >>> 8).toUInt8, (n &&& 0xFF).toUInt8]) = n := by
  rw [counterBytes_eq, ofBeBytes_beBytes n.toNat_lt, UInt16.ofNat_toNat]

/-- Decoding the encoder's bytes gives the header back, with the version cut to four bits. -/
theorem decode_encode (h : SapHeader) :
    decode h.encode = { h with sapVersion := h.sapVersion &&& 0b1111 } := by
  have hhash : readArray pahSize h.encode.toList 6 = h.pahHash := by
    rw [toList_encode]
    exact readArray_append h.prelude.toList h.pahHash h.pahSignature.toList
  have hsig : readArray sigSize h.encode.toList (6 + pahSize) = h.pahSignature := by
    have := readArray_append (h.prelude.toList ++ h.pahHash.toList) h.pahSignature []
    simpa [toList_encode, List.append_assoc] using this
  have hver : h.encode[3] = h.sapVersion &&& 0b1111 :=
    h.getElem_encode_prelude (by decide) (by decide)
  have hhi : h.encode[4] = (h.seqCounter >>> 8).toUInt8 :=
    h.getElem_encode_prelude (by decide) (by decide)
  have hlo : h.encode[5] = (h.seqCounter &&& 0xFF).toUInt8 :=
    h.getElem_encode_prelude (by decide) (by decide)
  simp only [decode, hhash, hsig, hver, hhi, hlo, ofBeBytes_counter]
  congr 1
  rw [UInt8.and_assoc]
  rfl

/-- Decoding the encoder's bytes gives the header back when its version fits in four bits. -/
theorem decode_encode_of_version_lt {h : SapHeader} (hv : h.sapVersion < 16) :
    decode h.encode = h := by
  have hmask : h.sapVersion &&& 0b1111 = h.sapVersion := by
    refine UInt8.toNat_inj.1 ?_
    have hlt : h.sapVersion.toNat < 16 := UInt8.lt_iff_toNat_lt.1 hv
    rw [UInt8.toNat_and]
    exact (Nat.and_two_pow_sub_one_eq_mod h.sapVersion.toNat 4).trans (Nat.mod_eq_of_lt hlt)
  rw [decode_encode, hmask]

/-- The encoder writes the magic the decoder's caller checks. -/
@[simp] theorem verifyMagic_encode (h : SapHeader) : verifyMagic h.encode = true := by
  rw [verifyMagic, h.getElem_encode_prelude (by decide), h.getElem_encode_prelude (by decide)]
  change (UInt16.ofNat (ofBeBytes [(familyMagic >>> 8).toUInt8, (familyMagic &&& 0xFF).toUInt8])
    == familyMagic) = true
  decide

/-- The encoder writes the protocol id the decoder's caller checks. -/
@[simp] theorem verifyProtocolId_encode (h : SapHeader) : verifyProtocolId h.encode = true := by
  rw [verifyProtocolId, h.getElem_encode_prelude (by decide)]
  change (sapProtocolId == sapProtocolId) = true
  decide

/-! ### From bytes and back -/

/-- A counter read from two bytes is written as these bytes. -/
theorem counterBytes_ofBeBytes (a b : UInt8) (n : UInt16)
    (hn : n = UInt16.ofNat (ofBeBytes [a, b])) :
    [(n >>> 8).toUInt8, (n &&& 0xFF).toUInt8] = [a, b] := by
  have hlt : ofBeBytes [a, b] < 2 ^ 16 := lt_of_lt_of_eq (ofBeBytes_lt [a, b]) (by simp)
  rw [counterBytes_eq, hn, UInt16.toNat_ofNat', Nat.mod_eq_of_lt hlt]
  exact beBytes_ofBeBytes [a, b]

/-- The bytes of a header, field by field. -/
theorem toList_eq_fields (v : Vector UInt8 sapSize) :
    v.toList = [v[0], v[1], v[2], v[3], v[4], v[5]] ++
      ((decode v).pahHash.toList ++ (decode v).pahSignature.toList) := by
  have hlen : v.toList.length = 6 + pahSize + sigSize := Vector.length_toList
  have hprelude : v.toList.take 6 = [v[0], v[1], v[2], v[3], v[4], v[5]] := by
    refine List.ext_getElem (by rw [List.length_take, hlen]; rfl) fun i _ hi => ?_
    rw [List.getElem_take, Vector.getElem_toList]
    match i, hi with
    | 0, _ | 1, _ | 2, _ | 3, _ | 4, _ | 5, _ => rfl
  have hhash : (decode v).pahHash.toList = slice v.toList 6 pahSize :=
    toList_readArray (by omega)
  have hsig : (decode v).pahSignature.toList = slice v.toList (6 + pahSize) sigSize :=
    toList_readArray (by omega)
  have hall : v.toList = v.toList.take (6 + pahSize + sigSize) := by
    rw [List.take_of_length_le (by omega)]
  rw [hhash, hsig, ← hprelude]
  conv_lhs => rw [hall, List.take_add, List.take_add, List.append_assoc]
  rfl

/-- Encoding a decoded header gives its bytes back, with the upper half of the version byte
cleared. -/
theorem encode_decode {v : Vector UInt8 sapSize} (hmagic : verifyMagic v = true)
    (hid : verifyProtocolId v = true) :
    (decode v).encode.toList = maskByte 3 0b1111 v.toList := by
  have hfamily := eq_of_familyMagic (beq_iff_eq.1 hmagic)
  have hproto : v[2] = sapProtocolId := beq_iff_eq.1 hid
  have hcounter := counterBytes_ofBeBytes v[4] v[5] (decode v).seqCounter rfl
  have hversion : (decode v).sapVersion &&& (0b1111 : UInt8) = v[3] &&& 0b1111 :=
    UInt8.and_assoc v[3] 0b1111 0b1111
  have hprelude : (decode v).prelude.toList = [v[0], v[1]] ++
      ([sapProtocolId, (decode v).sapVersion &&& 0b1111] ++ [v[4], v[5]]) := by
    rw [hfamily, ← hcounter]
    rfl
  rw [toList_encode, hprelude, hversion, ← hproto, toList_eq_fields v,
    maskByte_append_left (by simp)]
  rfl

/-! ### The sequence counter -/

/-- Below its largest value the counter grows. -/
theorem incrementSeq_lt {h : SapHeader} (hlt : h.seqCounter ≠ 65535) :
    h.seqCounter < h.incrementSeq.1 := by
  have hn : h.seqCounter.toNat ≠ 65535 := fun he => hlt (UInt16.toNat_inj.1 he)
  have := h.seqCounter.toNat_lt
  simp only [incrementSeq, UInt16.lt_iff_toNat_lt, UInt16.toNat_add, UInt16.toNat_ofNat]
  omega

/-- At its largest value the counter wraps around. -/
theorem incrementSeq_wrap {h : SapHeader} (hmax : h.seqCounter = 65535) :
    h.incrementSeq.1 = 0 := by
  rw [incrementSeq, hmax]
  rfl

end SapHeader

end Bind19
