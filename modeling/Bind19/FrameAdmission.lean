/-
**What the parser lets in, compared with what the constructor builds.**

The constructor refuses a SAP without a PFP.  The parser decides from the flags which layers to read
and has no such check: a byte string whose flags announce a SAP and no PFP is parsed into a frame
that the constructor would refuse.  This module shows that nothing else goes wrong.  Every frame the
parser returns satisfies all the other conditions of the constructor, and it satisfies this one
exactly when the flag byte does.

Main definitions:

* `Bind19.BindFrame.SameUpToOtherFlags` — equality of frames, the presence flags being the only flag
  bits compared;
* `Bind19.BindFrame.announcesSapWithoutPfp` — the flag byte that the parser ought to refuse.

Main results:

* `Bind19.BindFrame.decode_isSome` — the parsed layers are the announced ones;
* `Bind19.BindFrame.announced_of_decode`, `Bind19.BindFrame.wellFormed_of_decode`,
  `Bind19.BindFrame.new_of_wellFormed`;
* `Bind19.BindFrame.decode_constructible_iff` — **a parsed frame is one the constructor would build
  exactly when its flags do not announce a SAP without a PFP**.
-/

import Bind19.FrameCodec

set_option relaxedAutoImplicit false
set_option autoImplicit false

namespace Bind19

open ByteLayout

namespace BindFrame

/-! ### Comparing frames -/

/-- The flag bits the constructor sets. -/
def presenceMask : UInt8 := flagPfpPresent ||| flagSapPresent

/-- Two frames that agree in every field, except for flag bits other than the presence flags. -/
structure SameUpToOtherFlags (g f : BindFrame) : Prop where
  frameType : g.header.frameType = f.header.frameType
  channelId : g.header.channelId = f.header.channelId
  sequenceId : g.header.sequenceId = f.header.sequenceId
  payloadLength : g.header.payloadLength = f.header.payloadLength
  flags : g.header.flags &&& presenceMask = f.header.flags &&& presenceMask
  pfp : g.pfp = f.pfp
  sap : g.sap = f.sap
  payload : g.payload = f.payload

/-- The constructor sets no flag outside the mask and takes each presence flag from its layer. -/
theorem presenceFlags_and_mask (b : UInt8) :
    presenceFlags (b &&& flagPfpPresent != 0) (b &&& flagSapPresent != 0) &&& presenceMask =
      b &&& presenceMask := by
  have key : ∀ v : BitVec 8,
      presenceFlags (UInt8.ofBitVec v &&& flagPfpPresent != 0)
        (UInt8.ofBitVec v &&& flagSapPresent != 0) &&& presenceMask =
        UInt8.ofBitVec v &&& presenceMask := by decide
  exact key b.toBitVec

/-- A well-formed frame is built by the constructor, up to the flags it does not know. -/
theorem new_of_wellFormed {f : BindFrame} (hf : f.WellFormed) :
    ∃ g, new f.header.frameType f.header.channelId f.header.sequenceId f.pfp f.sap f.payload
      = .ok g ∧ SameUpToOtherFlags g f := by
  refine ⟨_, new_eq_ok_iff.2 ⟨hf.payload_le, hf.pfp_of_sap, rfl⟩, ?_⟩
  refine ⟨rfl, rfl, rfl, ?_, ?_, rfl, rfl, rfl⟩
  · refine UInt32.toNat_inj.1 ?_
    rw [hf.payloadLength]
    exact toNat_ofNat_length hf.payload_le
  · rw [← hf.hasPfp, ← hf.hasSap]
    exact presenceFlags_and_mask f.header.flags

/-! ### Parsed frames -/

/-- The parsed layers are the announced ones, and the payload starts where they end. -/
theorem decode_isSome {buf : List UInt8} {f : BindFrame} (h : decode buf = .ok f) :
    f.header.hasPfp = f.pfp.isSome ∧ f.header.hasSap = f.sap.isSome ∧
      f.payload = slice buf (headerSize + f.header.extensionLength)
        f.header.payloadLength.toNat := by
  obtain ⟨-, -, -, -, offset, offset', hpfp, hsap, hpay⟩ := decode_eq_ok_iff.1 h
  rw [BindHeader.extensionLength_eq]
  rcases decodePfp_eq_ok_iff.1 hpfp with ⟨hp, hp', rfl⟩ | ⟨hp, -, hp', rfl⟩ <;>
    rcases decodeSap_eq_ok_iff.1 hsap with ⟨hs, hs', rfl⟩ | ⟨hs, -, -, hs', rfl⟩ <;>
    simp only [hp, hs, hp', hs', hpay, Option.isSome_none, Option.isSome_some, true_and] <;> rfl

/-- The header of a parsed frame announces what follows it. -/
theorem announced_of_decode {buf : List UInt8} {f : BindFrame} (h : decode buf = .ok f) :
    f.Announced := by
  obtain ⟨hp, hs, hpay⟩ := decode_isSome h
  obtain ⟨-, -, htot, hmax, -⟩ := decode_eq_ok_iff.1 h
  have hlen : f.payload.length = f.header.payloadLength.toNat := by
    rw [hpay]
    exact length_slice htot
  exact
    { payloadLength := hlen.symm
      payload_le := hlen ▸ hmax
      hasPfp := hp
      hasSap := hs }

/-- A parsed frame satisfies the constructor's conditions as soon as no SAP stands without a
PFP. -/
theorem wellFormed_of_decode {buf : List UInt8} {f : BindFrame} (h : decode buf = .ok f)
    (hdep : f.sap.isSome = true → f.pfp.isSome = true) : f.WellFormed := by
  have hf := announced_of_decode h
  exact
    { payloadLength := hf.payloadLength
      payload_le := hf.payload_le
      hasPfp := hf.hasPfp
      hasSap := hf.hasSap
      pfp_of_sap := hdep }

/-- The flag byte of `buf` announces a SAP and no PFP. -/
def announcesSapWithoutPfp (buf : List UInt8) : Bool :=
  (buf.getD 2 0 &&& flagSapPresent != 0) && !(buf.getD 2 0 &&& flagPfpPresent != 0)

/-- The flags of a parsed frame are the third byte. -/
theorem flags_of_decode {buf : List UInt8} {f : BindFrame} (h : decode buf = .ok f) :
    f.header.flags = buf.getD 2 0 := by
  obtain ⟨-, hheader, -⟩ := decode_eq_ok_iff.1 h
  rw [hheader]
  simp [BindHeader.decode]

/-- The parser leaves the dependency of the SAP to the flag byte. -/
theorem pfp_of_sap_iff {buf : List UInt8} {f : BindFrame} (h : decode buf = .ok f) :
    (f.sap.isSome = true → f.pfp.isSome = true) ↔ announcesSapWithoutPfp buf = false := by
  obtain ⟨hp, hs, -⟩ := decode_isSome h
  rw [← hp, ← hs, BindHeader.hasPfp, BindHeader.hasSap, announcesSapWithoutPfp, flags_of_decode h]
  cases (buf.getD 2 0 &&& flagPfpPresent != 0) <;>
    cases (buf.getD 2 0 &&& flagSapPresent != 0) <;> simp

/-- **The parser against the constructor.**  A parsed frame is one the constructor would build,
field by field, with the payload length, the presence flags and the dependency of the SAP all in
order, exactly when the flag byte does not announce a SAP without a PFP. -/
theorem decode_constructible_iff (buf : List UInt8) (f : BindFrame) (h : decode buf = .ok f) :
    ((∃ g, new f.header.frameType f.header.channelId f.header.sequenceId f.pfp f.sap f.payload
          = .ok g ∧ SameUpToOtherFlags g f) ∧
        f.header.payloadLength.toNat = f.payload.length ∧ f.payload.length ≤ maxPayloadSize ∧
        f.header.hasPfp = f.pfp.isSome ∧ f.header.hasSap = f.sap.isSome ∧
        (f.sap.isSome = true → f.pfp.isSome = true)) ↔
      announcesSapWithoutPfp buf = false := by
  constructor
  · rintro ⟨-, -, -, -, -, hdep⟩
    exact (pfp_of_sap_iff h).1 hdep
  · intro hflags
    have hf := wellFormed_of_decode h ((pfp_of_sap_iff h).2 hflags)
    exact ⟨new_of_wellFormed hf, hf.payloadLength, hf.payload_le, hf.hasPfp, hf.hasSap,
      hf.pfp_of_sap⟩

/-- The sample frame is one the constructor builds, and its flag byte announces both layers. -/
theorem decode_constructible_iff_sampleFrame :
    ((∃ g, new sampleFrame.header.frameType sampleFrame.header.channelId
          sampleFrame.header.sequenceId sampleFrame.pfp sampleFrame.sap sampleFrame.payload
          = .ok g ∧ SameUpToOtherFlags g sampleFrame) ∧
        sampleFrame.header.payloadLength.toNat = sampleFrame.payload.length ∧
        sampleFrame.payload.length ≤ maxPayloadSize ∧
        sampleFrame.header.hasPfp = sampleFrame.pfp.isSome ∧
        sampleFrame.header.hasSap = sampleFrame.sap.isSome ∧
        (sampleFrame.sap.isSome = true → sampleFrame.pfp.isSome = true)) ↔
      announcesSapWithoutPfp sampleFrame.encode = false :=
  decode_constructible_iff sampleFrame.encode sampleFrame (by decide)

/-- The bytes of a frame whose flags announce a SAP and no PFP. -/
def sapOnlyBytes : List UInt8 :=
  [0x01, 0x00, 0x10, 0x00, 0x00, 0x00, 0x00, 0x00, 0xCF, 0x14, 0x01, 0x01, 0x00, 0x2A] ++
    List.replicate 22 0

/-- The frame the parser makes of them. -/
def sapOnlyFrame : BindFrame :=
  { header := BindHeader.new .data 0 flagSapPresent 0 0
    pfp := none
    sap := some (SapHeader.new 42 (Vector.replicate pahSize 0) (Vector.replicate sigSize 0))
    payload := [] }

/-- The parser accepts these bytes and the constructor refuses the frame it returns. -/
theorem decode_sapOnlyBytes :
    decode sapOnlyBytes = .ok sapOnlyFrame ∧
      new sapOnlyFrame.header.frameType sapOnlyFrame.header.channelId
        sapOnlyFrame.header.sequenceId sapOnlyFrame.pfp sapOnlyFrame.sap sapOnlyFrame.payload =
        .error .sapWithoutPfp := by
  decide

end BindFrame

end Bind19
