/-
**The physical feature layer PFP-xCF14.**

The four bytes a hard-real-time reader sees: the family magic, one byte of physical features packed
two bits each, and one byte of control flags whose upper five bits are reserved.  The encoder forces
the reserved bits to zero while the decoder keeps them, so the two are inverse to each other only up
to `reserved`; that is `Bind19.PfpHeader.decode_encode`.

Main definitions:

* `Bind19.Modality`, `Bind19.RiskLevel`, `Bind19.BodyStance`, `Bind19.ProximityEdge` — the four
  two-bit features, and `Bind19.TwoBit`, what their codes have in common;
* `Bind19.PfpHeader`, `Bind19.PfpHeader.encode`, `Bind19.PfpHeader.decode`;
* `Bind19.PfpHeader.effectiveRiskLevel` — rule 6, the downgrade of frames without replay check.

Main results:

* `Bind19.PfpHeader.decode_encode`, `Bind19.PfpHeader.verifyMagic_encode`;
* `Bind19.PfpHeader.effectiveRiskLevel_le_medium` — rule 6 caps the risk level.
-/

import Bind19.ByteLayout

set_option relaxedAutoImplicit false
set_option autoImplicit false

namespace Bind19

open ByteLayout

/-! ### Constants -/

/-- The length of a PFP header in bytes. -/
abbrev pfpSize : ℕ := 4

/-- The magic number of the protocol family. -/
def familyMagic : UInt16 := 0xCF14

/-- Two bytes are those of the family magic as soon as their number is. -/
theorem eq_of_familyMagic {a b : UInt8} (h : UInt16.ofNat (ofBeBytes [a, b]) = familyMagic) :
    [a, b] = [(familyMagic >>> 8).toUInt8, (familyMagic &&& 0xFF).toUInt8] := by
  have hlt : ofBeBytes [a, b] < 2 ^ 16 := lt_of_lt_of_eq (ofBeBytes_lt [a, b]) (by simp)
  have hnum : ofBeBytes [a, b] = 0xCF14 := by
    have := congrArg UInt16.toNat h
    rwa [UInt16.toNat_ofNat', Nat.mod_eq_of_lt hlt] at this
  rw [← beBytes_ofBeBytes [a, b], hnum]
  rfl

/-! ### Two-bit features -/

/-- Reading an enumeration of four values from the two low bits of a byte. -/
def fromTwoBits {α : Type} (zero one two three : α) (bits : UInt8) : α :=
  match bits &&& 0b11 with
  | 0 => zero
  | 1 => one
  | 2 => two
  | _ => three

/-- The codes that fit in two bits. -/
def twoBitCodes : List UInt8 := [0, 1, 2, 3]

/-- A feature held in two bits: its code fits, and is read back. -/
class TwoBit (α : Type) where
  toBits : α → UInt8
  fromBits : UInt8 → α
  toBits_mem : ∀ x, toBits x ∈ twoBitCodes
  fromBits_toBits : ∀ x, fromBits (toBits x) = x

/-- The mode of an operation. -/
inductive Modality where
  | cognitive
  | render
  | executive
  | sensorFeed
deriving DecidableEq, Repr

def Modality.fromBits : UInt8 → Modality := fromTwoBits cognitive render executive sensorFeed

def Modality.toBits : Modality → UInt8
  | cognitive => 0
  | render => 1
  | executive => 2
  | sensorFeed => 3

instance : TwoBit Modality where
  toBits := Modality.toBits
  fromBits := Modality.fromBits
  toBits_mem := by intro x; cases x <;> decide
  fromBits_toBits := by intro x; cases x <;> rfl

/-- The risk level of an operation. -/
inductive RiskLevel where
  | low
  | medium
  | critical
  | catastrophic
deriving DecidableEq, Repr

def RiskLevel.fromBits : UInt8 → RiskLevel := fromTwoBits low medium critical catastrophic

def RiskLevel.toBits : RiskLevel → UInt8
  | low => 0
  | medium => 1
  | critical => 2
  | catastrophic => 3

instance : TwoBit RiskLevel where
  toBits := RiskLevel.toBits
  fromBits := RiskLevel.fromBits
  toBits_mem := by intro x; cases x <;> decide
  fromBits_toBits := by intro x; cases x <;> rfl

/-- Risk levels are ordered by their code, as the derived order of the source does. -/
instance : LE RiskLevel := ⟨fun a b => a.toBits ≤ b.toBits⟩

instance : DecidableLE RiskLevel := fun a b => inferInstanceAs (Decidable (a.toBits ≤ b.toBits))

/-- The posture of the body. -/
inductive BodyStance where
  | seated
  | standing
  | moving
  | unknown
deriving DecidableEq, Repr

def BodyStance.fromBits : UInt8 → BodyStance := fromTwoBits seated standing moving unknown

def BodyStance.toBits : BodyStance → UInt8
  | seated => 0
  | standing => 1
  | moving => 2
  | unknown => 3

instance : TwoBit BodyStance where
  toBits := BodyStance.toBits
  fromBits := BodyStance.fromBits
  toBits_mem := by intro x; cases x <;> decide
  fromBits_toBits := by intro x; cases x <;> rfl

/-- How close the body stands to a dangerous edge. -/
inductive ProximityEdge where
  | safe
  | warning
  | danger
  | criticalEdge
deriving DecidableEq, Repr

def ProximityEdge.fromBits : UInt8 → ProximityEdge := fromTwoBits safe warning danger criticalEdge

def ProximityEdge.toBits : ProximityEdge → UInt8
  | safe => 0
  | warning => 1
  | danger => 2
  | criticalEdge => 3

instance : TwoBit ProximityEdge where
  toBits := ProximityEdge.toBits
  fromBits := ProximityEdge.fromBits
  toBits_mem := by intro x; cases x <;> decide
  fromBits_toBits := by intro x; cases x <;> rfl

/-! ### One-bit flags -/

/-- Where an output goes. -/
inductive OutputDest where
  | internal
  | external
deriving DecidableEq, Repr

def OutputDest.fromBit (bit : Bool) : OutputDest := if bit then external else internal

def OutputDest.toBit (d : OutputDest) : Bool := d == external

/-- Whether local policy is overridden. -/
inductive OverrideFlag where
  | normal
  | hardOverride
deriving DecidableEq, Repr

def OverrideFlag.fromBit (bit : Bool) : OverrideFlag := if bit then hardOverride else normal

def OverrideFlag.toBit (f : OverrideFlag) : Bool := f == hardOverride

/-! ### The header -/

/-- The physical feature header. -/
structure PfpHeader where
  modality : Modality
  riskLevel : RiskLevel
  bodyStance : BodyStance
  proximityEdge : ProximityEdge
  outputDest : OutputDest
  overrideFlag : OverrideFlag
  replayEnable : Bool
  reserved : UInt8
deriving DecidableEq, Repr

namespace PfpHeader

/-- A header with the reserved bits at zero. -/
def new (modality : Modality) (riskLevel : RiskLevel) (bodyStance : BodyStance)
    (proximityEdge : ProximityEdge) (outputDest : OutputDest) (overrideFlag : OverrideFlag)
    (replayEnable : Bool) : PfpHeader :=
  { modality, riskLevel, bodyStance, proximityEdge, outputDest, overrideFlag, replayEnable,
    reserved := 0 }

/-- Four two-bit codes in one byte, the first in the lowest bits. -/
def packFeatures (a b c d : UInt8) : UInt8 :=
  let bits01 : UInt8 := a &&& 0b11
  let bits23 : UInt8 := (b &&& 0b11) <<< 2
  let bits45 : UInt8 := (c &&& 0b11) <<< 4
  let bits67 : UInt8 := (d &&& 0b11) <<< 6
  bits01 ||| bits23 ||| bits45 ||| bits67

/-- Byte 2: the physical features, two bits each. -/
def featureByte (h : PfpHeader) : UInt8 :=
  packFeatures h.modality.toBits h.riskLevel.toBits h.bodyStance.toBits h.proximityEdge.toBits

/-- Three flags in the low bits of a byte. -/
def packFlags (bit0 bit1 bit2 : Bool) : UInt8 :=
  let byte3 : UInt8 := 0
  let byte3 := if bit0 then byte3 ||| ((1 : UInt8) <<< 0) else byte3
  let byte3 := if bit1 then byte3 ||| ((1 : UInt8) <<< 1) else byte3
  if bit2 then byte3 ||| ((1 : UInt8) <<< 2) else byte3

/-- Byte 3: the control flags.  The reserved bits are never set. -/
def controlByte (h : PfpHeader) : UInt8 :=
  packFlags h.outputDest.toBit h.overrideFlag.toBit h.replayEnable

/-- The header as four bytes. -/
def encode (h : PfpHeader) : Vector UInt8 pfpSize :=
  #v[(familyMagic >>> 8).toUInt8, (familyMagic &&& 0xFF).toUInt8, h.featureByte, h.controlByte]

/-- The header read from four bytes.  The magic is the caller's to check. -/
def decode (buf : Vector UInt8 pfpSize) : PfpHeader :=
  let byte2 := buf[2]
  let byte3 := buf[3]
  { modality := Modality.fromBits (byte2 &&& 0b11)
    riskLevel := RiskLevel.fromBits ((byte2 >>> 2) &&& 0b11)
    bodyStance := BodyStance.fromBits ((byte2 >>> 4) &&& 0b11)
    proximityEdge := ProximityEdge.fromBits ((byte2 >>> 6) &&& 0b11)
    outputDest := OutputDest.fromBit ((byte3 &&& ((1 : UInt8) <<< 0)) != 0)
    overrideFlag := OverrideFlag.fromBit ((byte3 &&& ((1 : UInt8) <<< 1)) != 0)
    replayEnable := (byte3 &&& ((1 : UInt8) <<< 2)) != 0
    reserved := (byte3 >>> 3) &&& 0b11111 }

/-- Whether four bytes start with the family magic. -/
def verifyMagic (buf : Vector UInt8 pfpSize) : Bool :=
  UInt16.ofNat (ofBeBytes [buf[0], buf[1]]) == familyMagic

/-- Whether the header triggers the hard override of rule 1. -/
def isCatastrophicOverride (h : PfpHeader) : Bool :=
  h.riskLevel == .catastrophic && h.overrideFlag == .hardOverride

/-- The risk level after rule 6: without replay check it is forced down to medium. -/
def effectiveRiskLevel (h : PfpHeader) : RiskLevel :=
  if !h.replayEnable then .medium else h.riskLevel

/-- Whether the reserved bits ask for a version negotiation. -/
def hasUnknownReserved (h : PfpHeader) : Bool := h.reserved != 0

/-! ### Encoding and decoding -/

/-- The four features packed into one byte are read back separately. -/
theorem unpack_features : ∀ a ∈ twoBitCodes, ∀ b ∈ twoBitCodes, ∀ c ∈ twoBitCodes,
    ∀ d ∈ twoBitCodes,
    packFeatures a b c d &&& 0b11 = a ∧ (packFeatures a b c d >>> 2) &&& 0b11 = b ∧
      (packFeatures a b c d >>> 4) &&& 0b11 = c ∧ (packFeatures a b c d >>> 6) &&& 0b11 = d := by
  decide +kernel

/-- The features of a header are read back from its byte 2. -/
theorem featureByte_unpack (h : PfpHeader) :
    h.featureByte &&& 0b11 = h.modality.toBits ∧
      (h.featureByte >>> 2) &&& 0b11 = h.riskLevel.toBits ∧
      (h.featureByte >>> 4) &&& 0b11 = h.bodyStance.toBits ∧
      (h.featureByte >>> 6) &&& 0b11 = h.proximityEdge.toBits :=
  unpack_features _ (TwoBit.toBits_mem h.modality) _ (TwoBit.toBits_mem h.riskLevel)
    _ (TwoBit.toBits_mem h.bodyStance) _ (TwoBit.toBits_mem h.proximityEdge)

/-- Three packed flags are read back separately, and nothing else is set. -/
theorem unpack_flags : ∀ bit0 bit1 bit2 : Bool,
    ((packFlags bit0 bit1 bit2 &&& ((1 : UInt8) <<< 0)) != 0) = bit0 ∧
      ((packFlags bit0 bit1 bit2 &&& ((1 : UInt8) <<< 1)) != 0) = bit1 ∧
      ((packFlags bit0 bit1 bit2 &&& ((1 : UInt8) <<< 2)) != 0) = bit2 ∧
      (packFlags bit0 bit1 bit2 >>> 3) &&& 0b11111 = 0 := by
  decide

@[simp] theorem fromBit_toBit_outputDest (d : OutputDest) : OutputDest.fromBit d.toBit = d := by
  cases d <;> rfl

@[simp] theorem fromBit_toBit_overrideFlag (f : OverrideFlag) :
    OverrideFlag.fromBit f.toBit = f := by
  cases f <;> rfl

/-- Decoding the encoder's bytes gives the header back, with the reserved bits cleared. -/
theorem decode_encode (h : PfpHeader) : decode h.encode = { h with reserved := 0 } := by
  obtain ⟨hm, hr, hb, hp⟩ := h.featureByte_unpack
  obtain ⟨hd, ho, he, hres⟩ :=
    unpack_flags h.outputDest.toBit h.overrideFlag.toBit h.replayEnable
  have h2 : h.encode[2] = h.featureByte := rfl
  have h3 : h.encode[3] = packFlags h.outputDest.toBit h.overrideFlag.toBit h.replayEnable := rfl
  have hmod : Modality.fromBits h.modality.toBits = h.modality :=
    TwoBit.fromBits_toBits h.modality
  have hrisk : RiskLevel.fromBits h.riskLevel.toBits = h.riskLevel :=
    TwoBit.fromBits_toBits h.riskLevel
  have hstance : BodyStance.fromBits h.bodyStance.toBits = h.bodyStance :=
    TwoBit.fromBits_toBits h.bodyStance
  have hedge : ProximityEdge.fromBits h.proximityEdge.toBits = h.proximityEdge :=
    TwoBit.fromBits_toBits h.proximityEdge
  simp only [decode, h2, h3, hm, hr, hb, hp, hd, ho, he, hres, hmod, hrisk, hstance, hedge,
    fromBit_toBit_outputDest, fromBit_toBit_overrideFlag]

/-- The encoder writes the magic the decoder's caller checks. -/
@[simp] theorem verifyMagic_encode (h : PfpHeader) : verifyMagic h.encode = true := by
  change (UInt16.ofNat (ofBeBytes [(familyMagic >>> 8).toUInt8, (familyMagic &&& 0xFF).toUInt8])
    == familyMagic) = true
  decide

/-! ### From bytes and back -/

/-- A byte taken apart into four features is put together again. -/
theorem packFeatures_unpack (b : UInt8) :
    packFeatures (Modality.fromBits (b &&& 0b11)).toBits
      (RiskLevel.fromBits ((b >>> 2) &&& 0b11)).toBits
      (BodyStance.fromBits ((b >>> 4) &&& 0b11)).toBits
      (ProximityEdge.fromBits ((b >>> 6) &&& 0b11)).toBits = b := by
  have key : ∀ v : BitVec 8, packFeatures (Modality.fromBits (UInt8.ofBitVec v &&& 0b11)).toBits
      (RiskLevel.fromBits ((UInt8.ofBitVec v >>> 2) &&& 0b11)).toBits
      (BodyStance.fromBits ((UInt8.ofBitVec v >>> 4) &&& 0b11)).toBits
      (ProximityEdge.fromBits ((UInt8.ofBitVec v >>> 6) &&& 0b11)).toBits = UInt8.ofBitVec v := by
    decide +kernel
  exact key b.toBitVec

/-- A byte taken apart into three flags is put together again, without its reserved bits. -/
theorem packFlags_unpack (b : UInt8) :
    packFlags (OutputDest.fromBit ((b &&& ((1 : UInt8) <<< 0)) != 0)).toBit
      (OverrideFlag.fromBit ((b &&& ((1 : UInt8) <<< 1)) != 0)).toBit
      ((b &&& ((1 : UInt8) <<< 2)) != 0) = b &&& 0b111 := by
  have key : ∀ v : BitVec 8,
      packFlags (OutputDest.fromBit ((UInt8.ofBitVec v &&& ((1 : UInt8) <<< 0)) != 0)).toBit
        (OverrideFlag.fromBit ((UInt8.ofBitVec v &&& ((1 : UInt8) <<< 1)) != 0)).toBit
        ((UInt8.ofBitVec v &&& ((1 : UInt8) <<< 2)) != 0) = UInt8.ofBitVec v &&& 0b111 := by
    decide +kernel
  exact key b.toBitVec

/-- The reserved bits and the rest make up the byte. -/
theorem eq_of_reserved_of_flags {a b : UInt8}
    (hres : (a >>> 3) &&& (0b11111 : UInt8) = (b >>> 3) &&& 0b11111)
    (hflags : a &&& (0b111 : UInt8) = b &&& 0b111) : a = b := by
  have split : ∀ v : BitVec 8, UInt8.ofBitVec v =
      (((UInt8.ofBitVec v >>> 3) &&& 0b11111) <<< 3) ||| (UInt8.ofBitVec v &&& 0b111) := by
    decide +kernel
  have ha : a = (((a >>> 3) &&& 0b11111) <<< 3) ||| (a &&& 0b111) := split a.toBitVec
  have hb : b = (((b >>> 3) &&& 0b11111) <<< 3) ||| (b &&& 0b111) := split b.toBitVec
  rw [ha, hb, hres, hflags]

variable {v w : Vector UInt8 pfpSize}

/-- Encoding a decoded header gives its bytes back, with the reserved bits cleared. -/
theorem encode_decode (h : verifyMagic v = true) :
    (decode v).encode.toList = maskByte 3 0b111 v.toList := by
  have hmagic := eq_of_familyMagic (beq_iff_eq.1 h)
  have henc : (decode v).encode.toList =
      [(familyMagic >>> 8).toUInt8, (familyMagic &&& 0xFF).toUInt8] ++
        [(decode v).featureByte, (decode v).controlByte] := rfl
  have hfeatures : (decode v).featureByte = v[2] := packFeatures_unpack v[2]
  have hcontrol : (decode v).controlByte = v[3] &&& 0b111 := packFlags_unpack v[3]
  rw [henc, hfeatures, hcontrol, ← hmagic, toList_vector4]
  rfl

/-- The bytes of a header are determined by what is decoded from them. -/
theorem decode_inj (hv : verifyMagic v = true) (hw : verifyMagic w = true)
    (h : decode v = decode w) : v = w := by
  have henc : maskByte 3 0b111 v.toList = maskByte 3 0b111 w.toList := by
    rw [← encode_decode hv, ← encode_decode hw, h]
  have hres : (v[3] >>> 3) &&& (0b11111 : UInt8) = (w[3] >>> 3) &&& 0b11111 := congrArg reserved h
  rw [toList_vector4, toList_vector4] at henc
  have hbytes : [v[0], v[1], v[2], v[3] &&& 0b111] = [w[0], w[1], w[2], w[3] &&& 0b111] := henc
  injection hbytes with h0 hbytes
  injection hbytes with h1 hbytes
  injection hbytes with h2 hbytes
  injection hbytes with h3
  refine Vector.toList_inj.1 ?_
  rw [toList_vector4, toList_vector4, h0, h1, h2, eq_of_reserved_of_flags hres h3]

/-! ### Rule 6 -/

/-- Without replay check the effective risk level is at most medium, whatever the header says. -/
theorem effectiveRiskLevel_le_medium {h : PfpHeader} (hr : h.replayEnable = false) :
    h.effectiveRiskLevel ≤ .medium := by
  simp only [effectiveRiskLevel, hr, Bool.not_false, if_true]
  decide

/-- With replay check the effective risk level is the header's own. -/
theorem effectiveRiskLevel_of_replayEnable {h : PfpHeader} (hr : h.replayEnable = true) :
    h.effectiveRiskLevel = h.riskLevel := by
  simp [effectiveRiskLevel, hr]

end PfpHeader

end Bind19
