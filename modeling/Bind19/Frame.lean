/-
**BIND-19 frames.**

A frame is an eight-byte header, an optional PFP layer, an optional SAP layer and a payload.  The
header's flags say which layers are present, and its length field counts the payload only, so every
offset after the header depends on the flags.

There are two ways to obtain a frame: the constructor `Bind19.BindFrame.new` and the parser
`Bind19.BindFrame.decode`.  They check their conditions separately and in different orders; what
they agree on is proved in `Bind19/FrameCodec.lean` and `Bind19/FrameAdmission.lean`.

Main definitions:

* `Bind19.FrameType`, `Bind19.BindHeader` — the header and its eight bytes;
* `Bind19.BindFrame`, `Bind19.BindFrame.new`, `Bind19.BindFrame.encode`,
  `Bind19.BindFrame.decode` — frames, their constructor, encoder and parser;
* `Bind19.BindFrame.effectiveRiskLevelWithConfig` — rule 6 at the level of frames.

Main results:

* `Bind19.BindHeader.decode_encode` — headers of a type that has a code are read back;
* `Bind19.BindFrame.decode_eq_ok_iff` — what the parser accepts, condition by condition.
-/

import Bind19.Sap

set_option relaxedAutoImplicit false
set_option autoImplicit false

namespace Bind19

open ByteLayout

/-! ### Constants -/

/-- The length of the fixed header in bytes. -/
abbrev headerSize : ℕ := 8

/-- The largest payload, 64 MB. -/
def maxPayloadSize : ℕ := 0x04000000

/-- The final fragment of a message. -/
def flagFin : UInt8 := 0x01

/-- A frame that needs consent. -/
def flagCon : UInt8 := 0x02

/-- A frame whose payload is encrypted. -/
def flagSec : UInt8 := 0x04

/-- A frame with a PFP layer. -/
def flagPfpPresent : UInt8 := 0x08

/-- A frame with a SAP layer. -/
def flagSapPresent : UInt8 := 0x10

/-! ### Frame types -/

/-- The type of a frame. -/
inductive FrameType where
  | data
  | heartbeat
  | control
  | vector
  | handshake
  | error
  | keyRotation
  | keyRotationAck
  | unknown (b : UInt8)
deriving DecidableEq, Repr

namespace FrameType

def fromByte (b : UInt8) : FrameType :=
  match b with
  | 0x01 => data
  | 0x02 => heartbeat
  | 0x03 => control
  | 0x04 => vector
  | 0x05 => handshake
  | 0x06 => error
  | 0x07 => keyRotation
  | 0x08 => keyRotationAck
  | other => unknown other

def toByte : FrameType → UInt8
  | data => 0x01
  | heartbeat => 0x02
  | control => 0x03
  | vector => 0x04
  | handshake => 0x05
  | error => 0x06
  | keyRotation => 0x07
  | keyRotationAck => 0x08
  | unknown b => b

/-- Every byte is the code of the type it is read as. -/
@[simp] theorem toByte_fromByte (b : UInt8) : (fromByte b).toByte = b := by
  unfold fromByte
  split <;> rfl

end FrameType

/-! ### The fixed header -/

/-- The fixed header of a frame. -/
structure BindHeader where
  frameType : FrameType
  channelId : UInt8
  flags : UInt8
  sequenceId : UInt8
  payloadLength : UInt32
deriving DecidableEq, Repr

namespace BindHeader

def new (frameType : FrameType) (channelId flags sequenceId : UInt8) (payloadLength : UInt32) :
    BindHeader :=
  { frameType, channelId, flags, sequenceId, payloadLength }

/-- The header as eight bytes. -/
def encode (h : BindHeader) : Vector UInt8 headerSize :=
  #v[h.frameType.toByte, h.channelId, h.flags, h.sequenceId] ++ toBeBytes32 h.payloadLength

/-- The header read from eight bytes. -/
def decode (buf : Vector UInt8 headerSize) : BindHeader :=
  { frameType := FrameType.fromByte buf[0]
    channelId := buf[1]
    flags := buf[2]
    sequenceId := buf[3]
    payloadLength := UInt32.ofNat (ofBeBytes [buf[4], buf[5], buf[6], buf[7]]) }

def hasPfp (h : BindHeader) : Bool := h.flags &&& flagPfpPresent != 0

def hasSap (h : BindHeader) : Bool := h.flags &&& flagSapPresent != 0

def isFin (h : BindHeader) : Bool := h.flags &&& flagFin != 0

def isCon (h : BindHeader) : Bool := h.flags &&& flagCon != 0

def isSec (h : BindHeader) : Bool := h.flags &&& flagSec != 0

/-- The length of the layers the flags announce. -/
def extensionLength (h : BindHeader) : ℕ :=
  let len := 0
  let len := if h.hasPfp then len + pfpSize else len
  if h.hasSap then len + sapSize else len

/-- The length of the whole frame. -/
def totalFrameLength (h : BindHeader) : ℕ :=
  headerSize + h.extensionLength + h.payloadLength.toNat

/-- A header whose type has a code is read back from its bytes. -/
theorem decode_encode {h : BindHeader} (ht : ∃ b, h.frameType = FrameType.fromByte b) :
    decode h.encode = h := by
  obtain ⟨b, hb⟩ := ht
  have hlen : ofBeBytes (beBytes 4 h.payloadLength.toNat) = h.payloadLength.toNat :=
    ofBeBytes_beBytes h.payloadLength.toNat_lt
  have htail : [h.encode[4], h.encode[5], h.encode[6], h.encode[7]]
      = beBytes 4 h.payloadLength.toNat := rfl
  have htype : FrameType.fromByte h.encode[0] = h.frameType := by
    change FrameType.fromByte h.frameType.toByte = h.frameType
    rw [hb, FrameType.toByte_fromByte]
  have hch : h.encode[1] = h.channelId := rfl
  have hfl : h.encode[2] = h.flags := rfl
  have hsq : h.encode[3] = h.sequenceId := rfl
  rw [decode, htype, hch, hfl, hsq, htail, hlen, UInt32.ofNat_toNat]

/-- Encoding a decoded header gives its bytes back. -/
theorem encode_decode (v : Vector UInt8 headerSize) : (decode v).encode = v := by
  have hlt : ofBeBytes [v[4], v[5], v[6], v[7]] < 2 ^ 32 :=
    lt_of_lt_of_eq (ofBeBytes_lt [v[4], v[5], v[6], v[7]]) (by simp)
  have hlen : (decode v).payloadLength.toNat = ofBeBytes [v[4], v[5], v[6], v[7]] := by
    rw [decode, UInt32.toNat_ofNat', Nat.mod_eq_of_lt hlt]
  have htail : (toBeBytes32 (decode v).payloadLength).toList = [v[4], v[5], v[6], v[7]] := by
    rw [toList_toBeBytes32, hlen]
    exact beBytes_ofBeBytes [v[4], v[5], v[6], v[7]]
  have htype : (decode v).frameType.toByte = v[0] := FrameType.toByte_fromByte v[0]
  refine Vector.toList_inj.1 ?_
  rw [encode, Vector.toList_append, htail, htype]
  refine List.ext_getElem (by simp) fun i hi hi' => ?_
  rw [Vector.length_toList] at hi'
  match i, hi' with
  | 0, _ | 1, _ | 2, _ | 3, _ | 4, _ | 5, _ | 6, _ | 7, _ => rfl

theorem extensionLength_eq (h : BindHeader) : h.extensionLength =
    (if h.hasPfp then pfpSize else 0) + (if h.hasSap then sapSize else 0) := by
  unfold extensionLength
  cases h.hasPfp <;> cases h.hasSap <;> rfl

theorem totalFrameLength_eq (h : BindHeader) : h.totalFrameLength =
    headerSize + ((if h.hasPfp then pfpSize else 0) + (if h.hasSap then sapSize else 0)) +
      h.payloadLength.toNat := by
  rw [totalFrameLength, extensionLength_eq]

end BindHeader

/-! ### Errors and configuration -/

/-- Why a frame is refused. -/
inductive FrameError where
  | incompleteHeader
  | incompleteFrame
  | bufferOverflow
  | sapWithoutPfp
  | invalidPfpMagic
  | invalidSapMagic
  | invalidSapProtocolId
deriving DecidableEq, Repr

/-- The text an error is displayed as. -/
def FrameError.display : FrameError → String
  | incompleteHeader => "incomplete BIND-19 header (need 8 bytes)"
  | incompleteFrame => "incomplete BIND-19 frame"
  | bufferOverflow => "payload exceeds 64MB hard limit"
  | sapWithoutPfp => "SAP cannot exist without PFP"
  | invalidPfpMagic => "invalid PFP family magic (expected 0xCF14)"
  | invalidSapMagic => "invalid SAP family magic (expected 0xCF14)"
  | invalidSapProtocolId => "invalid SAP protocol ID (expected 0x01)"

/-- The runtime configuration. -/
structure BindConfig where
  debugMode : Bool
deriving DecidableEq, Repr

/-- Whether rule 6 is in force: it is skipped in debug mode only. -/
def BindConfig.rule6Enabled (c : BindConfig) : Bool := !c.debugMode

/-! ### Frames -/

/-- A frame: the header, the optional layers and the payload. -/
structure BindFrame where
  header : BindHeader
  pfp : Option PfpHeader
  sap : Option SapHeader
  payload : List UInt8
deriving DecidableEq, Repr

namespace BindFrame

/-- The flags of a frame with the given layers. -/
def presenceFlags (hasPfp hasSap : Bool) : UInt8 :=
  let flags : UInt8 := 0
  let flags := if hasPfp then flags ||| flagPfpPresent else flags
  if hasSap then flags ||| flagSapPresent else flags

/-- The constructor: the payload must fit, and a SAP needs a PFP. -/
def new (frameType : FrameType) (channelId sequenceId : UInt8) (pfp : Option PfpHeader)
    (sap : Option SapHeader) (payload : List UInt8) : Except FrameError BindFrame :=
  if payload.length > maxPayloadSize then
    .error .bufferOverflow
  else if sap.isSome && pfp.isNone then
    .error .sapWithoutPfp
  else
    let header := BindHeader.new frameType channelId (presenceFlags pfp.isSome sap.isSome)
      sequenceId (UInt32.ofNat payload.length)
    .ok { header, pfp, sap, payload }

/-- The constructor of frames without layers. -/
def newV1 (frameType : FrameType) (channelId sequenceId : UInt8) (payload : List UInt8) :
    Except FrameError BindFrame :=
  new frameType channelId sequenceId none none payload

/-- The bytes of the PFP layer. -/
def pfpBytes (f : BindFrame) : List UInt8 :=
  match f.pfp with
  | some pfp => pfp.encode.toList
  | none => []

/-- The bytes of the SAP layer. -/
def sapBytes (f : BindFrame) : List UInt8 :=
  match f.sap with
  | some sap => sap.encode.toList
  | none => []

/-- The frame as a byte string. -/
def encode (f : BindFrame) : List UInt8 :=
  f.header.encode.toList ++ (f.pfpBytes ++ (f.sapBytes ++ f.payload))

/-- The parser's second stage: the PFP layer, if announced, and the offset after it. -/
def decodePfp (header : BindHeader) (buf : List UInt8) (offset : ℕ) :
    Except FrameError (Option PfpHeader × ℕ) :=
  if header.hasPfp then
    let pfpArray := readArray pfpSize buf offset
    if !PfpHeader.verifyMagic pfpArray then
      .error .invalidPfpMagic
    else
      .ok (some (PfpHeader.decode pfpArray), offset + pfpSize)
  else
    .ok (none, offset)

/-- The parser's third stage: the SAP layer, if announced, and the offset after it. -/
def decodeSap (header : BindHeader) (buf : List UInt8) (offset : ℕ) :
    Except FrameError (Option SapHeader × ℕ) :=
  if header.hasSap then
    let sapArray := readArray sapSize buf offset
    if !SapHeader.verifyMagic sapArray then
      .error .invalidSapMagic
    else if !SapHeader.verifyProtocolId sapArray then
      .error .invalidSapProtocolId
    else
      .ok (some (SapHeader.decode sapArray), offset + sapSize)
  else
    .ok (none, offset)

/-- The parser: the header, the length checks, then layer by layer. -/
def decode (buf : List UInt8) : Except FrameError BindFrame :=
  if buf.length < headerSize then
    .error .incompleteHeader
  else
    let header := BindHeader.decode (readArray headerSize buf 0)
    let extLen := header.extensionLength
    let totalNeeded := headerSize + extLen + header.payloadLength.toNat
    if buf.length < totalNeeded then
      .error .incompleteFrame
    else if header.payloadLength.toNat > maxPayloadSize then
      .error .bufferOverflow
    else
      match decodePfp header buf headerSize with
      | .error e => .error e
      | .ok (pfp, offset) =>
        match decodeSap header buf offset with
        | .error e => .error e
        | .ok (sap, offset) =>
          .ok { header, pfp, sap, payload := slice buf offset header.payloadLength.toNat }

/-- Whether a frame carries neither layer. -/
def isV1Compatible (f : BindFrame) : Bool := f.pfp.isNone && f.sap.isNone

/-- The risk level after rule 6, unless the configuration skips it.  Frames without a PFP have
none. -/
def effectiveRiskLevelWithConfig (f : BindFrame) (config : BindConfig) : Option RiskLevel :=
  match f.pfp with
  | none => none
  | some pfp => if config.rule6Enabled then some pfp.effectiveRiskLevel else some pfp.riskLevel

/-- Whether the frame triggers the hard override of rule 1. -/
def isCatastrophicOverride (f : BindFrame) : Bool :=
  match f.pfp with
  | some pfp => pfp.isCatastrophicOverride
  | none => false

/-- Whether the frame asks to skip the replay check. -/
def isReplayDisabled (f : BindFrame) : Bool :=
  match f.pfp with
  | some pfp => !pfp.replayEnable
  | none => false

/-! ### What the parser accepts -/

/-- The second stage succeeds exactly on an absent layer and on a layer with the right magic. -/
theorem decodePfp_eq_ok_iff {header : BindHeader} {buf : List UInt8} {offset offset' : ℕ}
    {pfp : Option PfpHeader} :
    decodePfp header buf offset = .ok (pfp, offset') ↔
      (header.hasPfp = false ∧ pfp = none ∧ offset' = offset) ∨
      (header.hasPfp = true ∧ PfpHeader.verifyMagic (readArray pfpSize buf offset) = true ∧
        pfp = some (PfpHeader.decode (readArray pfpSize buf offset)) ∧
        offset' = offset + pfpSize) := by
  unfold decodePfp
  constructor
  · intro h
    split at h
    · rename_i hp
      dsimp only at h
      split at h
      · cases h
      · rename_i hm
        cases h
        exact Or.inr ⟨hp, by simpa using hm, rfl, rfl⟩
    · rename_i hp
      cases h
      exact Or.inl ⟨by simpa using hp, rfl, rfl⟩
  · rintro (⟨hp, rfl, rfl⟩ | ⟨hp, hm, rfl, rfl⟩)
    · simp only [hp, Bool.false_eq_true, if_false]
    · simp only [hp, hm, Bool.not_true, Bool.false_eq_true, if_true, if_false]

/-- The third stage succeeds exactly on an absent layer and on a layer with the right magic and
protocol id. -/
theorem decodeSap_eq_ok_iff {header : BindHeader} {buf : List UInt8} {offset offset' : ℕ}
    {sap : Option SapHeader} :
    decodeSap header buf offset = .ok (sap, offset') ↔
      (header.hasSap = false ∧ sap = none ∧ offset' = offset) ∨
      (header.hasSap = true ∧ SapHeader.verifyMagic (readArray sapSize buf offset) = true ∧
        SapHeader.verifyProtocolId (readArray sapSize buf offset) = true ∧
        sap = some (SapHeader.decode (readArray sapSize buf offset)) ∧
        offset' = offset + sapSize) := by
  unfold decodeSap
  constructor
  · intro h
    split at h
    · rename_i hs
      dsimp only at h
      split at h
      · cases h
      · rename_i hm
        split at h
        · cases h
        · rename_i hid
          cases h
          exact Or.inr ⟨hs, by simpa using hm, by simpa using hid, rfl, rfl⟩
    · rename_i hs
      cases h
      exact Or.inl ⟨by simpa using hs, rfl, rfl⟩
  · rintro (⟨hs, rfl, rfl⟩ | ⟨hs, hm, hid, rfl, rfl⟩)
    · simp only [hs, Bool.false_eq_true, if_false]
    · simp only [hs, hm, hid, Bool.not_true, Bool.false_eq_true, if_true, if_false]

/-- The parser accepts a frame exactly when the byte string is long enough, the payload fits and
both layers parse; the header is the one at the front and the payload is what follows the
layers. -/
theorem decode_eq_ok_iff {buf : List UInt8} {f : BindFrame} :
    decode buf = .ok f ↔
      headerSize ≤ buf.length ∧
      f.header = BindHeader.decode (readArray headerSize buf 0) ∧
      f.header.totalFrameLength ≤ buf.length ∧
      f.header.payloadLength.toNat ≤ maxPayloadSize ∧
      ∃ offset offset', decodePfp f.header buf headerSize = .ok (f.pfp, offset) ∧
        decodeSap f.header buf offset = .ok (f.sap, offset') ∧
        f.payload = slice buf offset' f.header.payloadLength.toNat := by
  unfold decode
  generalize BindHeader.decode (readArray headerSize buf 0) = header
  constructor
  · intro h
    split at h
    · cases h
    · rename_i hlen
      dsimp only at h
      split at h
      · cases h
      · rename_i htot
        split at h
        · cases h
        · rename_i hmax
          split at h
          · cases h
          · rename_i pfp offset hpfp
            split at h
            · cases h
            · rename_i sap offset' hsap
              cases h
              have htot' : header.totalFrameLength ≤ buf.length := by
                rw [BindHeader.totalFrameLength]
                exact Nat.not_lt.1 htot
              exact ⟨Nat.not_lt.1 hlen, rfl, htot', Nat.not_lt.1 hmax, offset, offset', hpfp,
                hsap, rfl⟩
  · rintro ⟨hlen, rfl, htot, hmax, offset, offset', hpfp, hsap, hpay⟩
    rw [BindHeader.totalFrameLength] at htot
    rw [if_neg (Nat.not_lt.2 hlen)]
    dsimp only
    rw [if_neg (Nat.not_lt.2 htot), if_neg (Nat.not_lt.2 hmax), hpfp]
    dsimp only
    rw [hsap]
    dsimp only
    rw [← hpay]

end BindFrame

end Bind19
