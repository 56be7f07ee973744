/-
**What a parsed frame keeps of its bytes.**

A relay parses a frame and writes it again.  Nearly all of the bytes it read come back: unknown
frame types and unassigned flags are carried along, and so are the version, the counter and the
digests of the SAP.  Two fields are lost, the reserved bits of the PFP, which the encoder clears,
and the reserved bits of the SAP, which the decoder drops.

The difference between the two matters to whoever looks at the parsed frame only.  The reserved bits
of the PFP are a field of the parsed header; those of the SAP are not.  Two byte strings that differ
there and nowhere else are parsed into the same frame, and these are the only ones.

Everything follows from one description of the bytes a frame was parsed from: the header, then the
bytes of each layer, then the payload.

Main definitions:

* `Bind19.PfpWire`, `Bind19.SapWire` — the bytes a layer is parsed from;
* `Bind19.BindFrame.clearReserved` — a byte string with the reserved bits of its layers cleared;
* `Bind19.BindFrame.DifferInSapReserved` — two byte strings that differ in the reserved bits of the
  SAP only.

Main results:

* `Bind19.BindFrame.decode_wire` — **the bytes a frame was parsed from**;
* `Bind19.BindFrame.decode_reencode` — **writing a parsed frame clears the reserved bits, and
  changes nothing else**;
* `Bind19.BindFrame.decode_inj_iff` — **the byte strings that are parsed into the same frame**.
-/

import Bind19.FrameAdmission

set_option relaxedAutoImplicit false
set_option autoImplicit false

namespace Bind19

open ByteLayout

/-! ### The bytes of a layer -/

/-- The bytes a PFP layer is parsed from. -/
inductive PfpWire : Option PfpHeader → List UInt8 → Prop
  | absent : PfpWire none []
  | present (v : Vector UInt8 pfpSize) (hmagic : PfpHeader.verifyMagic v = true) :
      PfpWire (some (PfpHeader.decode v)) v.toList

/-- The bytes a SAP layer is parsed from. -/
inductive SapWire : Option SapHeader → List UInt8 → Prop
  | absent : SapWire none []
  | present (v : Vector UInt8 sapSize) (hmagic : SapHeader.verifyMagic v = true)
      (hid : SapHeader.verifyProtocolId v = true) : SapWire (some (SapHeader.decode v)) v.toList

/-- The bytes of a PFP layer and what is parsed from them determine each other. -/
theorem PfpWire.eq_iff {pfp pfp' : Option PfpHeader} {bs bs' : List UInt8} (h : PfpWire pfp bs)
    (h' : PfpWire pfp' bs') : pfp = pfp' ↔ bs = bs' := by
  cases h with
  | absent =>
      cases h' with
      | absent => simp
      | present w hw =>
          have hne : w.toList ≠ [] := by simp
          simp [hne.symm]
  | present v hv =>
      cases h' with
      | absent =>
          have hne : v.toList ≠ [] := by simp
          simp [hne]
      | present w hw =>
          rw [Option.some.injEq, Vector.toList_inj]
          exact ⟨PfpHeader.decode_inj hv hw, congrArg _⟩

theorem PfpWire.length_eq {pfp : Option PfpHeader} {bs : List UInt8} (h : PfpWire pfp bs) :
    bs.length = if pfp.isSome then pfpSize else 0 := by
  cases h with
  | absent => rfl
  | present v hv => exact Vector.length_toList

theorem SapWire.length_eq {sap : Option SapHeader} {bs : List UInt8} (h : SapWire sap bs) :
    bs.length = if sap.isSome then sapSize else 0 := by
  cases h with
  | absent => rfl
  | present v hv hid => exact Vector.length_toList

/-- The version of a parsed SAP fits in four bits. -/
theorem SapHeader.decode_version_lt (v : Vector UInt8 sapSize) :
    (SapHeader.decode v).sapVersion < 16 := by
  have hmask : v[3].toNat &&& 15 = v[3].toNat % 16 := Nat.and_two_pow_sub_one_eq_mod v[3].toNat 4
  refine UInt8.lt_iff_toNat_lt.2 ?_
  rw [SapHeader.decode, UInt8.toNat_and]
  change v[3].toNat &&& 15 < 16
  omega

theorem SapWire.version_lt {sap : Option SapHeader} {bs : List UInt8} (h : SapWire sap bs) :
    ∀ s, sap = some s → s.sapVersion < 16 := by
  rintro s rfl
  cases h with
  | present v hv hid => exact SapHeader.decode_version_lt v

/-- Two SAP layers are parsed into the same header exactly when their bytes agree outside the
reserved bits. -/
theorem SapWire.eq_iff {sap sap' : Option SapHeader} {bs bs' : List UInt8} (h : SapWire sap bs)
    (h' : SapWire sap' bs') : sap = sap' ↔ maskByte 3 0b1111 bs = maskByte 3 0b1111 bs' := by
  cases h with
  | absent =>
      cases h' with
      | absent => simp
      | present w hw hwid =>
          have hne : maskByte 3 0b1111 w.toList ≠ [] := by simp [maskByte]
          simp [hne.symm]
  | present v hv hvid =>
      cases h' with
      | absent =>
          have hne : maskByte 3 0b1111 v.toList ≠ [] := by simp [maskByte]
          simp [hne]
      | present w hw hwid =>
          rw [Option.some.injEq, ← SapHeader.encode_decode hv hvid,
            ← SapHeader.encode_decode hw hwid, Vector.toList_inj]
          refine ⟨congrArg _, fun henc => ?_⟩
          have hdec := congrArg SapHeader.decode henc
          rwa [SapHeader.decode_encode_of_version_lt (SapHeader.decode_version_lt v),
            SapHeader.decode_encode_of_version_lt (SapHeader.decode_version_lt w)] at hdec

namespace BindFrame

/-- Writing a parsed PFP layer clears its reserved bits. -/
theorem pfpBytes_of_wire {f : BindFrame} {bs : List UInt8} (h : PfpWire f.pfp bs) :
    f.pfpBytes = maskByte 3 0b111 bs := by
  rw [pfpBytes]
  generalize f.pfp = pfp at h
  cases h with
  | absent => rfl
  | present v hv => exact PfpHeader.encode_decode hv

/-- Writing a parsed SAP layer clears its reserved bits. -/
theorem sapBytes_of_wire {f : BindFrame} {bs : List UInt8} (h : SapWire f.sap bs) :
    f.sapBytes = maskByte 3 0b1111 bs := by
  rw [sapBytes]
  generalize f.sap = sap at h
  cases h with
  | absent => rfl
  | present v hv hid => exact SapHeader.encode_decode hv hid

/-! ### The bytes of a frame -/

variable {header : BindHeader} {buf : List UInt8} {offset offset' : ℕ} {f : BindFrame}

/-- The second stage consumes the bytes of the PFP layer. -/
theorem decodePfp_wire {pfp : Option PfpHeader}
    (h : decodePfp header buf offset = .ok (pfp, offset')) (hlen : offset' ≤ buf.length) :
    ∃ bs, PfpWire pfp bs ∧ buf.take offset' = buf.take offset ++ bs := by
  rcases decodePfp_eq_ok_iff.1 h with ⟨-, rfl, rfl⟩ | ⟨-, hmagic, rfl, rfl⟩
  · exact ⟨[], .absent, (List.append_nil _).symm⟩
  · refine ⟨_, .present _ hmagic, ?_⟩
    rw [List.take_add, toList_readArray hlen]
    rfl

/-- The third stage consumes the bytes of the SAP layer. -/
theorem decodeSap_wire {sap : Option SapHeader}
    (h : decodeSap header buf offset = .ok (sap, offset')) (hlen : offset' ≤ buf.length) :
    ∃ bs, SapWire sap bs ∧ buf.take offset' = buf.take offset ++ bs := by
  rcases decodeSap_eq_ok_iff.1 h with ⟨-, rfl, rfl⟩ | ⟨-, hmagic, hid, rfl, rfl⟩
  · exact ⟨[], .absent, (List.append_nil _).symm⟩
  · refine ⟨_, .present _ hmagic hid, ?_⟩
    rw [List.take_add, toList_readArray hlen]
    rfl

/-- The layers end where the header says they do. -/
theorem offset_of_layers {pfp : Option PfpHeader} {sap : Option SapHeader}
    (hpfp : decodePfp header buf headerSize = .ok (pfp, offset))
    (hsap : decodeSap header buf offset = .ok (sap, offset')) :
    offset ≤ offset' ∧ offset' = headerSize + header.extensionLength := by
  rw [BindHeader.extensionLength_eq]
  rcases decodePfp_eq_ok_iff.1 hpfp with ⟨hp, -, rfl⟩ | ⟨hp, -, -, rfl⟩ <;>
    rcases decodeSap_eq_ok_iff.1 hsap with ⟨hs, -, rfl⟩ | ⟨hs, -, -, -, rfl⟩ <;>
    simp [hp, hs]
  all_goals omega

/-- **The bytes a frame was parsed from**: the header's, those of each layer, and the payload. -/
theorem decode_wire (h : decode buf = .ok f) :
    ∃ pfpBs sapBs, PfpWire f.pfp pfpBs ∧ SapWire f.sap sapBs ∧
      buf.take f.header.totalFrameLength =
        f.header.encode.toList ++ (pfpBs ++ (sapBs ++ f.payload)) := by
  obtain ⟨hlen, hheader, htot, -, offset, offset', hpfp, hsap, hpay⟩ := decode_eq_ok_iff.1 h
  obtain ⟨hle, hoff⟩ := offset_of_layers hpfp hsap
  rw [BindHeader.totalFrameLength, ← hoff] at htot ⊢
  have hfront : f.header.encode.toList = buf.take headerSize := by
    rw [hheader, BindHeader.encode_decode, toList_readArray (by omega)]
    rfl
  obtain ⟨pfpBs, hpfpWire, hpfpTake⟩ := decodePfp_wire hpfp (by omega)
  obtain ⟨sapBs, hsapWire, hsapTake⟩ := decodeSap_wire hsap (by omega)
  refine ⟨pfpBs, sapBs, hpfpWire, hsapWire, ?_⟩
  rw [List.take_add, hsapTake, hpfpTake, hfront, hpay, List.append_assoc, List.append_assoc]
  rfl

/-! ### Clearing the reserved bits -/

/-- The flag byte announces a PFP. -/
def announcesPfp (buf : List UInt8) : Bool := buf.getD 2 0 &&& flagPfpPresent != 0

/-- The flag byte announces a SAP. -/
def announcesSap (buf : List UInt8) : Bool := buf.getD 2 0 &&& flagSapPresent != 0

/-- Where the SAP starts, if there is one. -/
def sapOffset (buf : List UInt8) : ℕ := headerSize + if announcesPfp buf then pfpSize else 0

/-- The byte string with bits 3 to 7 of the PFP's byte 3 cleared. -/
def clearPfpReserved (buf : List UInt8) : List UInt8 :=
  if announcesPfp buf then maskByte (headerSize + 3) 0b111 buf else buf

/-- The byte string with bits 4 to 7 of the SAP's byte 3 cleared. -/
def clearSapReserved (buf : List UInt8) : List UInt8 :=
  if announcesSap buf then maskByte (sapOffset buf + 3) 0b1111 buf else buf

/-- The byte string with the reserved bits of its layers cleared. -/
def clearReserved (buf : List UInt8) : List UInt8 := clearSapReserved (clearPfpReserved buf)

theorem announcesPfp_append (header : BindHeader) (rest : List UInt8) :
    announcesPfp (header.encode.toList ++ rest) = header.hasPfp := rfl

theorem announcesSap_append (header : BindHeader) (rest : List UInt8) :
    announcesSap (header.encode.toList ++ rest) = header.hasSap := rfl

variable {pfpBs sapBs : List UInt8}

/-- The reserved bits of the PFP stand in its byte 3. -/
theorem clearPfpReserved_append (hpfp : pfpBs.length = if header.hasPfp then pfpSize else 0)
    (rest : List UInt8) : clearPfpReserved (header.encode.toList ++ (pfpBs ++ rest)) =
      header.encode.toList ++ (maskByte 3 0b111 pfpBs ++ rest) := by
  rw [clearPfpReserved, announcesPfp_append]
  split at hpfp
  · rename_i hp
    rw [if_pos hp, maskByte_append_right Vector.length_toList,
      maskByte_append_left (by rw [hpfp]; decide)]
  · rename_i hp
    rw [if_neg hp, List.eq_nil_of_length_eq_zero hpfp, maskByte_nil]

/-- The reserved bits of the SAP stand in its byte 3. -/
theorem clearSapReserved_append (hpfp : pfpBs.length = if header.hasPfp then pfpSize else 0)
    (hsap : sapBs.length = if header.hasSap then sapSize else 0) (rest : List UInt8) :
    clearSapReserved (header.encode.toList ++ (pfpBs ++ (sapBs ++ rest))) =
      header.encode.toList ++ (pfpBs ++ (maskByte 3 0b1111 sapBs ++ rest)) := by
  rw [clearSapReserved, announcesSap_append]
  split at hsap
  · rename_i hs
    rw [if_pos hs, sapOffset, announcesPfp_append, ← hpfp, Nat.add_assoc,
      maskByte_append_right Vector.length_toList, maskByte_append_right rfl,
      maskByte_append_left (by rw [hsap]; decide)]
  · rename_i hs
    rw [if_neg hs, List.eq_nil_of_length_eq_zero hsap, maskByte_nil]

/-! ### Writing a parsed frame -/

/-- The lengths of the layers are the announced ones. -/
theorem length_of_wire (h : decode buf = .ok f) (hpfp : PfpWire f.pfp pfpBs)
    (hsap : SapWire f.sap sapBs) :
    pfpBs.length = (if f.header.hasPfp then pfpSize else 0) ∧
      sapBs.length = if f.header.hasSap then sapSize else 0 := by
  have hf := announced_of_decode h
  rw [hf.hasPfp, hf.hasSap]
  exact ⟨hpfp.length_eq, hsap.length_eq⟩

/-- **Writing a parsed frame clears the reserved bits of its layers.** -/
theorem encode_of_decode (h : decode buf = .ok f) :
    f.encode = clearReserved (buf.take f.header.totalFrameLength) := by
  obtain ⟨pfpBs, sapBs, hpfp, hsap, htake⟩ := decode_wire h
  obtain ⟨hpfpLen, hsapLen⟩ := length_of_wire h hpfp hsap
  have hmasked : (maskByte 3 0b111 pfpBs).length = if f.header.hasPfp then pfpSize else 0 := by
    rw [← hpfpLen, maskByte, List.length_modify]
  rw [htake, clearReserved, clearPfpReserved_append hpfpLen,
    clearSapReserved_append hmasked hsapLen, encode, pfpBytes_of_wire hpfp, sapBytes_of_wire hsap]

/-- A frame with the reserved bits of its PFP cleared. -/
def withoutReserved (f : BindFrame) : BindFrame :=
  { f with pfp := f.pfp.map fun pfp => { pfp with reserved := 0 } }

/-- The only bits of a parsed frame that its encoding drops are the reserved bits of the PFP. -/
theorem normalize_of_decode (h : decode buf = .ok f) : f.normalize = f.withoutReserved := by
  obtain ⟨-, sapBs, -, hsap, -⟩ := decode_wire h
  have hself : f.withoutReserved.normalize = f.withoutReserved := by
    refine normalize_eq_self (fun p hp => ?_) hsap.version_lt
    rw [withoutReserved, Option.map_eq_some_iff] at hp
    obtain ⟨pfp, -, rfl⟩ := hp
    rfl
  rw [← hself, normalize, normalize, withoutReserved]
  cases f.pfp <;> rfl

/-- The type of a parsed frame has a code. -/
theorem frameType_of_decode (h : decode buf = .ok f) :
    ∃ b, f.header.frameType = FrameType.fromByte b := by
  obtain ⟨-, hheader, -⟩ := decode_eq_ok_iff.1 h
  rw [hheader]
  exact ⟨_, rfl⟩

/-- **Writing a parsed frame.**  The encoding of a parsed frame is as long as its header announces,
and it is what stood at the front of the byte string with the reserved bits of the layers cleared.
Parsing it gives the frame back with the reserved bits of the PFP cleared, and writing that gives
the same bytes. -/
theorem decode_reencode (buf : List UInt8) (f : BindFrame) (h : decode buf = .ok f) :
    f.encode.length = f.header.totalFrameLength ∧ f.header.totalFrameLength ≤ buf.length ∧
      f.encode = clearReserved (buf.take f.header.totalFrameLength) ∧
      decode f.encode = .ok f.withoutReserved ∧ f.withoutReserved.encode = f.encode := by
  have hdecode : decode f.encode = .ok f.withoutReserved := by
    have := decode_encode_append (announced_of_decode h) (frameType_of_decode h) []
    rwa [List.append_nil, normalize_of_decode h] at this
  have hlen := length_encode (announced_of_decode h)
  obtain ⟨-, -, htot, -⟩ := decode_eq_ok_iff.1 h
  refine ⟨hlen, htot, encode_of_decode h, hdecode, ?_⟩
  -- the encoder does not look at the reserved bits
  simp only [encode, pfpBytes, sapBytes, withoutReserved]
  cases f.pfp <;> rfl

/-- The bytes of a frame of unknown type with unassigned flags, all reserved bits of the PFP set,
and `sapByte3` for the version byte of its SAP. -/
def relayBytes (sapByte3 : UInt8) : List UInt8 :=
  [0x2A, 0x01, 0xF8, 0x02, 0x00, 0x00, 0x00, 0x01, 0xCF, 0x14, 0xEE, 0xFD,
    0xCF, 0x14, 0x01, sapByte3, 0x00, 0x2A] ++ (List.replicate 22 0 ++ [0xAA])

/-- The frame parsed from them when the low half of the version byte is the current version. -/
def relayFrame : BindFrame :=
  { header := BindHeader.new (.unknown 0x2A) 1 0xF8 2 1
    pfp := some
      { PfpHeader.new .executive .catastrophic .moving .criticalEdge .external .normal true with
        reserved := 31 }
    sap := some (SapHeader.new 42 (Vector.replicate pahSize 0) (Vector.replicate sigSize 0))
    payload := [0xAA] }

/-- What writing the sample frame does, with reserved bits set in both layers. -/
theorem decode_reencode_relayFrame :
    relayFrame.encode.length = relayFrame.header.totalFrameLength ∧
      relayFrame.header.totalFrameLength ≤ (relayBytes 0x51).length ∧
      relayFrame.encode =
        clearReserved ((relayBytes 0x51).take relayFrame.header.totalFrameLength) ∧
      decode relayFrame.encode = .ok relayFrame.withoutReserved ∧
      relayFrame.withoutReserved.encode = relayFrame.encode :=
  decode_reencode (relayBytes 0x51) relayFrame (by decide +kernel)

/-! ### Byte strings that are parsed into the same frame -/

/-- Two byte strings that differ, but not outside the reserved bits of the SAP. -/
def DifferInSapReserved (b₁ b₂ : List UInt8) : Prop :=
  b₁ ≠ b₂ ∧ clearSapReserved b₁ = clearSapReserved b₂

variable {b₁ b₂ : List UInt8} {f₁ f₂ : BindFrame}

/-- Two byte strings that hold a frame and nothing else are parsed into the same frame exactly when
they agree outside the reserved bits of the SAP. -/
theorem eq_iff_clearSapReserved_eq (h₁ : decode b₁ = .ok f₁) (h₂ : decode b₂ = .ok f₂)
    (hlen₁ : b₁.length = f₁.header.totalFrameLength)
    (hlen₂ : b₂.length = f₂.header.totalFrameLength) :
    f₁ = f₂ ↔ clearSapReserved b₁ = clearSapReserved b₂ := by
  obtain ⟨pfp₁, sap₁, hpfp₁, hsap₁, htake₁⟩ := decode_wire h₁
  obtain ⟨pfp₂, sap₂, hpfp₂, hsap₂, htake₂⟩ := decode_wire h₂
  obtain ⟨hpfpLen₁, hsapLen₁⟩ := length_of_wire h₁ hpfp₁ hsap₁
  obtain ⟨hpfpLen₂, hsapLen₂⟩ := length_of_wire h₂ hpfp₂ hsap₂
  rw [← hlen₁, List.take_length] at htake₁
  rw [← hlen₂, List.take_length] at htake₂
  rw [htake₁, htake₂, clearSapReserved_append hpfpLen₁ hsapLen₁,
    clearSapReserved_append hpfpLen₂ hsapLen₂]
  constructor
  · rintro rfl
    rw [(hpfp₁.eq_iff hpfp₂).1 rfl, (hsap₁.eq_iff hsap₂).1 rfl]
  · intro heq
    -- field after field, each as long on one side as on the other
    obtain ⟨hhead, heq⟩ := List.append_inj heq (by rw [Vector.length_toList, Vector.length_toList])
    have hheader : f₁.header = f₂.header := by
      have := congrArg BindHeader.decode (Vector.toList_inj.1 hhead)
      rwa [BindHeader.decode_encode (frameType_of_decode h₁),
        BindHeader.decode_encode (frameType_of_decode h₂)] at this
    obtain ⟨hpfp, heq⟩ := List.append_inj heq (by rw [hpfpLen₁, hpfpLen₂, hheader])
    obtain ⟨hsap, hpayload⟩ := List.append_inj heq (by
      rw [maskByte, maskByte, List.length_modify, List.length_modify, hsapLen₁, hsapLen₂, hheader])
    have hpfp' : f₁.pfp = f₂.pfp := (hpfp₁.eq_iff hpfp₂).2 hpfp
    have hsap' : f₁.sap = f₂.sap := (hsap₁.eq_iff hsap₂).2 hsap
    obtain ⟨header₁, pfp₁, sap₁, payload₁⟩ := f₁
    obtain ⟨header₂, pfp₂, sap₂, payload₂⟩ := f₂
    exact congr (congr (congr (congrArg BindFrame.mk hheader) hpfp') hsap') hpayload

/-- **The byte strings that are parsed into the same frame.**  Let two byte strings each hold a
frame and nothing else.  If they are parsed into the same frame they are equal, unless they differ
in the reserved bits of the SAP and nowhere else; and then they are not. -/
theorem decode_inj_iff (b₁ b₂ : List UInt8) (f₁ f₂ : BindFrame) (h₁ : decode b₁ = .ok f₁)
    (h₂ : decode b₂ = .ok f₂) (hlen₁ : b₁.length = f₁.header.totalFrameLength)
    (hlen₂ : b₂.length = f₂.header.totalFrameLength) :
    (f₁ = f₂ → b₁ = b₂) ↔ ¬ DifferInSapReserved b₁ b₂ := by
  rw [eq_iff_clearSapReserved_eq h₁ h₂ hlen₁ hlen₂, DifferInSapReserved, not_and']
  exact imp_congr_right fun _ => not_not.symm

/-- The sample bytes with and without reserved bits in the SAP. -/
theorem decode_inj_iff_relayBytes :
    (relayFrame = relayFrame → relayBytes 0x51 = relayBytes 0x01) ↔
      ¬ DifferInSapReserved (relayBytes 0x51) (relayBytes 0x01) :=
  decode_inj_iff (relayBytes 0x51) (relayBytes 0x01) relayFrame relayFrame (by decide +kernel)
    (by decide +kernel) (by decide +kernel) (by decide +kernel)

/-- They are parsed into the same frame, and both hold nothing else. -/
theorem decode_relayBytes :
    decode (relayBytes 0x51) = .ok relayFrame ∧ decode (relayBytes 0x01) = .ok relayFrame ∧
      (relayBytes 0x51).length = relayFrame.header.totalFrameLength ∧
      (relayBytes 0x01).length = relayFrame.header.totalFrameLength ∧
      relayBytes 0x51 ≠ relayBytes 0x01 := by
  decide +kernel

end BindFrame

end Bind19
