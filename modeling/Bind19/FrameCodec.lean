/-
**Encoding and parsing a frame.**

A frame that satisfies the constructor's conditions survives the wire: the parser reads it back
from its encoding, whatever bytes follow, and from a proper prefix it asks for more.  The only
information lost is the one the encoders drop on purpose, the reserved bits of the PFP and the
upper half of the SAP's version byte, so the general statement is about
`Bind19.BindFrame.normalize`.

The proof goes stage by stage, as the parser does: each stage finds its layer at the offset where
the stages before it stopped, and leaves the offset at the end of that layer.

Main definitions:

* `Bind19.BindFrame.WellFormed` — the conditions the constructor establishes, and
  `Bind19.BindFrame.Announced`, those among them that the codec rests on;
* `Bind19.BindFrame.normalize` — a frame without the bits its encoding drops.

Main results:

* `Bind19.BindFrame.new_eq_ok_iff`, `Bind19.BindFrame.wellFormed_of_new` — what the constructor
  builds, and that it is well-formed;
* `Bind19.BindFrame.length_encode`, `Bind19.BindFrame.decode_encode_append`,
  `Bind19.BindFrame.decode_take_encode` — the length of an encoding, the frame parsed from it, and
  the answer on a truncated one;
* `Bind19.BindFrame.new_roundTrip` — **every constructed frame survives the wire**.
-/

import Bind19.Frame

set_option relaxedAutoImplicit false
set_option autoImplicit false

namespace Bind19

open ByteLayout

namespace BindFrame

/-! ### Well-formed frames -/

/-- The conditions every constructed frame satisfies: the length field counts the payload, the
payload fits, the flags announce the layers that are there, and no SAP stands without a PFP. -/
structure WellFormed (f : BindFrame) : Prop where
  payloadLength : f.header.payloadLength.toNat = f.payload.length
  payload_le : f.payload.length ≤ maxPayloadSize
  hasPfp : f.header.hasPfp = f.pfp.isSome
  hasSap : f.header.hasSap = f.sap.isSome
  pfp_of_sap : f.sap.isSome = true → f.pfp.isSome = true

/-- The header announces what follows it: the length field counts the payload, the payload fits,
and the flags tell which layers are there. -/
structure Announced (f : BindFrame) : Prop where
  payloadLength : f.header.payloadLength.toNat = f.payload.length
  payload_le : f.payload.length ≤ maxPayloadSize
  hasPfp : f.header.hasPfp = f.pfp.isSome
  hasSap : f.header.hasSap = f.sap.isSome

theorem WellFormed.announced {f : BindFrame} (hf : f.WellFormed) : f.Announced where
  payloadLength := hf.payloadLength
  payload_le := hf.payload_le
  hasPfp := hf.hasPfp
  hasSap := hf.hasSap

/-- The presence flags are read back, and no other flag is set. -/
theorem presenceFlags_spec : ∀ p s : Bool,
    ((presenceFlags p s &&& flagPfpPresent) != 0) = p ∧
      ((presenceFlags p s &&& flagSapPresent) != 0) = s := by
  decide

/-- A length within the limit fits the length field. -/
theorem toNat_ofNat_length {n : ℕ} (h : n ≤ maxPayloadSize) : (UInt32.ofNat n).toNat = n := by
  rw [UInt32.toNat_ofNat']
  exact Nat.mod_eq_of_lt (Nat.lt_of_le_of_lt h (by decide))

/-- The constructor succeeds exactly when the payload fits and no SAP stands without a PFP. -/
theorem new_eq_ok_iff {frameType : FrameType} {channelId sequenceId : UInt8}
    {pfp : Option PfpHeader} {sap : Option SapHeader} {payload : List UInt8} {f : BindFrame} :
    new frameType channelId sequenceId pfp sap payload = .ok f ↔
      payload.length ≤ maxPayloadSize ∧ (sap.isSome = true → pfp.isSome = true) ∧
      f = { header := BindHeader.new frameType channelId (presenceFlags pfp.isSome sap.isSome)
              sequenceId (UInt32.ofNat payload.length),
            pfp, sap, payload } := by
  unfold new
  constructor
  · intro h
    split at h
    · cases h
    · rename_i hlen
      split at h
      · cases h
      · rename_i hdep
        cases h
        exact ⟨Nat.not_lt.1 hlen, fun hs => by simpa [hs, Option.isSome_iff_ne_none] using hdep,
          rfl⟩
  · rintro ⟨hlen, hdep, rfl⟩
    have hdep' : (sap.isSome && pfp.isNone) = false := by
      cases hs : sap.isSome <;> simp_all
    rw [if_neg (Nat.not_lt.2 hlen), hdep']
    rfl

/-- Constructed frames are well-formed. -/
theorem wellFormed_of_new {frameType : FrameType} {channelId sequenceId : UInt8}
    {pfp : Option PfpHeader} {sap : Option SapHeader} {payload : List UInt8} {f : BindFrame}
    (h : new frameType channelId sequenceId pfp sap payload = .ok f) : f.WellFormed := by
  obtain ⟨hlen, hdep, rfl⟩ := new_eq_ok_iff.1 h
  exact
    { payloadLength := toNat_ofNat_length hlen
      payload_le := hlen
      hasPfp := (presenceFlags_spec _ _).1
      hasSap := (presenceFlags_spec _ _).2
      pfp_of_sap := hdep }

/-! ### The length of an encoding -/

theorem length_pfpBytes (f : BindFrame) :
    f.pfpBytes.length = if f.pfp.isSome then pfpSize else 0 := by
  unfold pfpBytes
  cases f.pfp with
  | none => rfl
  | some pfp => exact Vector.length_toList

theorem length_sapBytes (f : BindFrame) :
    f.sapBytes.length = if f.sap.isSome then sapSize else 0 := by
  unfold sapBytes
  cases f.sap with
  | none => rfl
  | some sap => exact Vector.length_toList

/-- The header announces the length of the encoding. -/
theorem length_encode {f : BindFrame} (hf : f.Announced) :
    f.encode.length = f.header.totalFrameLength := by
  rw [encode, BindHeader.totalFrameLength_eq, hf.hasPfp, hf.hasSap, hf.payloadLength,
    ← length_pfpBytes, ← length_sapBytes]
  simp only [List.length_append, Vector.length_toList]
  omega

/-! ### Parsing an encoding -/

/-- A frame without the bits its encoding drops. -/
def normalize (f : BindFrame) : BindFrame :=
  { f with
    pfp := f.pfp.map fun pfp => { pfp with reserved := 0 }
    sap := f.sap.map fun sap => { sap with sapVersion := sap.sapVersion &&& 0b1111 } }

/-- Nothing is dropped from a frame whose reserved bits are clear. -/
theorem normalize_eq_self {f : BindFrame} (hp : ∀ p, f.pfp = some p → p.reserved = 0)
    (hs : ∀ s, f.sap = some s → s.sapVersion < 16) : f.normalize = f := by
  obtain ⟨header, pfp, sap, payload⟩ := f
  have hpfp : (pfp.map fun p => { p with reserved := 0 }) = pfp := by
    cases pfp with
    | none => rfl
    | some p =>
        have : p.reserved = 0 := hp p rfl
        rw [Option.map_some, ← this]
  have hsap : (sap.map fun s => { s with sapVersion := s.sapVersion &&& 0b1111 }) = sap := by
    cases sap with
    | none => rfl
    | some s =>
        -- the version mask is the one the SAP codec was shown to leave alone
        have := SapHeader.decode_encode_of_version_lt (hs s rfl)
        rw [SapHeader.decode_encode] at this
        rw [Option.map_some, this]
  simp only [normalize, hpfp, hsap]

/-- The second stage finds the PFP where the bytes before it end. -/
theorem decodePfp_append {f : BindFrame} (hf : f.Announced) (pre post : List UInt8) :
    decodePfp f.header (pre ++ (f.pfpBytes ++ post)) pre.length =
      .ok (f.normalize.pfp, (pre ++ f.pfpBytes).length) := by
  rw [decodePfp_eq_ok_iff, hf.hasPfp, normalize, pfpBytes]
  cases f.pfp with
  | none => exact Or.inl ⟨rfl, rfl, by simp⟩
  | some pfp =>
      right
      dsimp only
      rw [readArray_append]
      refine ⟨rfl, PfpHeader.verifyMagic_encode pfp, ?_, ?_⟩
      · rw [PfpHeader.decode_encode, Option.map_some]
      · rw [List.length_append, Vector.length_toList]

/-- The third stage finds the SAP where the bytes before it end. -/
theorem decodeSap_append {f : BindFrame} (hf : f.Announced) (pre post : List UInt8) :
    decodeSap f.header (pre ++ (f.sapBytes ++ post)) pre.length =
      .ok (f.normalize.sap, (pre ++ f.sapBytes).length) := by
  rw [decodeSap_eq_ok_iff, hf.hasSap, normalize, sapBytes]
  cases f.sap with
  | none => exact Or.inl ⟨rfl, rfl, by simp⟩
  | some sap =>
      right
      dsimp only
      rw [readArray_append]
      refine ⟨rfl, SapHeader.verifyMagic_encode sap, SapHeader.verifyProtocolId_encode sap, ?_, ?_⟩
      · rw [SapHeader.decode_encode, Option.map_some]
      · rw [List.length_append, Vector.length_toList]

/-- The header stands at the front of an encoding, whatever follows. -/
theorem readArray_encode_append (f : BindFrame) (t : List UInt8) :
    readArray headerSize (f.encode ++ t) 0 = f.header.encode := by
  have := readArray_append [] f.header.encode (f.pfpBytes ++ (f.sapBytes ++ f.payload) ++ t)
  simpa [encode, List.append_assoc] using this

/-- **A frame is parsed from its encoding, whatever bytes follow.** -/
theorem decode_encode_append {f : BindFrame} (hf : f.Announced)
    (ht : ∃ b, f.header.frameType = FrameType.fromByte b) (t : List UInt8) :
    decode (f.encode ++ t) = .ok f.normalize := by
  have hlen := length_encode hf
  have hheader : BindHeader.decode (readArray headerSize (f.encode ++ t) 0) = f.header := by
    rw [readArray_encode_append, BindHeader.decode_encode ht]
  have hbuf : f.encode ++ t = f.header.encode.toList ++
      (f.pfpBytes ++ (f.sapBytes ++ (f.payload ++ t))) := by
    simp [encode, List.append_assoc]
  rw [decode_eq_ok_iff]
  refine ⟨?_, hheader.symm, ?_, ?_, (f.header.encode.toList ++ f.pfpBytes).length,
    (f.header.encode.toList ++ f.pfpBytes ++ f.sapBytes).length, ?_, ?_, ?_⟩
  · rw [hbuf, List.length_append, Vector.length_toList]
    exact Nat.le_add_right _ _
  · rw [List.length_append, hlen]
    exact Nat.le_add_right _ _
  · exact hf.payloadLength ▸ hf.payload_le
  · rw [hbuf]
    have := decodePfp_append hf f.header.encode.toList (f.sapBytes ++ (f.payload ++ t))
    rwa [Vector.length_toList] at this
  · rw [hbuf, ← List.append_assoc]
    exact decodeSap_append hf (f.header.encode.toList ++ f.pfpBytes) (f.payload ++ t)
  · change f.payload = slice _ _ f.header.payloadLength.toNat
    rw [hf.payloadLength, hbuf, ← List.append_assoc, ← List.append_assoc, slice_append]

/-- **A truncated encoding is incomplete**: the parser asks for more, whichever byte is the first
one missing. -/
theorem decode_take_encode {f : BindFrame} (hf : f.Announced)
    (ht : ∃ b, f.header.frameType = FrameType.fromByte b) {k : ℕ} (hk : k < f.encode.length) :
    decode (f.encode.take k) =
      .error (if k < headerSize then .incompleteHeader else .incompleteFrame) := by
  have hlen : (f.encode.take k).length = k := by
    rw [List.length_take]
    omega
  unfold decode
  by_cases hk8 : k < headerSize
  · rw [if_pos (by omega), if_pos hk8]
  · -- the header is complete, so the length it announces is the one of the whole encoding
    have hheader : BindHeader.decode (readArray headerSize (f.encode.take k) 0) = f.header := by
      have hread : readArray headerSize (f.encode.take k ++ f.encode.drop k) 0 =
          readArray headerSize (f.encode.take k) 0 := readArray_append_left _ (by omega)
      have hfull := readArray_encode_append f []
      rw [List.append_nil] at hfull
      rw [List.take_append_drop, hfull] at hread
      rw [← hread, BindHeader.decode_encode ht]
    have htot := length_encode hf
    rw [BindHeader.totalFrameLength] at htot
    rw [if_neg (by omega), if_neg hk8, hheader]
    dsimp only
    rw [if_pos (by omega)]

/-! ### Constructed frames -/

/-- A data frame with both layers, as a sender builds it. -/
def sampleFrame : BindFrame :=
  { header := BindHeader.new .data 1 (flagPfpPresent ||| flagSapPresent) 0 2
    pfp := some (PfpHeader.new .executive .medium .moving .warning .external .normal true)
    sap := some (SapHeader.new 42 (Vector.replicate pahSize 0) (Vector.replicate sigSize 0))
    payload := [0xAA, 0xBB] }

/-- **Every constructed frame survives the wire.**  Built from a type that has a code, a PFP with
clear reserved bits and a SAP whose version fits in four bits, it is parsed from its encoding
whatever follows, the encoding is as long as the header announces, and every proper prefix is
incomplete. -/
theorem new_roundTrip (b channelId sequenceId : UInt8) (pfp : Option PfpHeader)
    (sap : Option SapHeader) (payload : List UInt8) (f : BindFrame)
    (hpfp : ∀ p, pfp = some p → p.reserved = 0) (hsap : ∀ s, sap = some s → s.sapVersion < 16)
    (hnew : new (FrameType.fromByte b) channelId sequenceId pfp sap payload = .ok f) :
    (∀ t, decode (f.encode ++ t) = .ok f) ∧
      f.encode.length = f.header.totalFrameLength ∧
      ∀ k < f.encode.length, decode (f.encode.take k) =
        .error (if k < headerSize then .incompleteHeader else .incompleteFrame) := by
  have hf := (wellFormed_of_new hnew).announced
  obtain ⟨-, -, rfl⟩ := new_eq_ok_iff.1 hnew
  refine ⟨fun t => ?_, length_encode hf, fun k hk => decode_take_encode hf ⟨b, rfl⟩ hk⟩
  rw [decode_encode_append hf ⟨b, rfl⟩ t, normalize_eq_self hpfp hsap]

/-- The round trip of a data frame with both layers and a two-byte payload. -/
theorem new_roundTrip_sampleFrame :
    (∀ t, decode (sampleFrame.encode ++ t) = .ok sampleFrame) ∧
      sampleFrame.encode.length = sampleFrame.header.totalFrameLength ∧
      ∀ k < sampleFrame.encode.length, decode (sampleFrame.encode.take k) =
        .error (if k < headerSize then .incompleteHeader else .incompleteFrame) :=
  new_roundTrip 0x01 1 0 sampleFrame.pfp sampleFrame.sap sampleFrame.payload sampleFrame
    (fun p hp => by cases hp; rfl) (fun s hs => by cases hs; decide) rfl

end BindFrame

end Bind19
