/-
**One decision in three places.**

Whether a frame triggers the hard override is decided three times over.  The real-time path shifts
and masks two bytes at a fixed offset of the wire; the parsed frame compares two fields of its PFP;
and a manager that is handed the PFP of a parsed frame gets bytes that were encoded again, with the
reserved bits gone.  This module shows that the three agree on every frame that the parser accepts,
with or without a PFP, whatever else the frame carries.

Main results:

* `Bind19.BindFrame.pfp_of_decode` — the PFP of a parsed frame is read right after the header;
* `Bind19.CatastrophicManager.isCatastrophicOverride_encode` — the bit test of an encoded header is
  the test of its fields;
* `Bind19.BindFrame.isCatastrophicOverride_iff_wire` — **the three tests agree**.
-/

import Bind19.Catastrophic
import Bind19.FrameReencoding

set_option relaxedAutoImplicit false
set_option autoImplicit false

namespace Bind19

open ByteLayout

namespace CatastrophicManager

/-- The bit test of an encoded header is the test of its fields.  The reserved bits do not
matter. -/
theorem isCatastrophicOverride_encode (pfp : PfpHeader) :
    isCatastrophicOverride pfp.encode = pfp.isCatastrophicOverride := by
  rw [isCatastrophicOverride_eq, PfpHeader.decode_encode]
  rfl

/-- Handling a frame answers with the bit test. -/
theorem handleFrame_fst (sha256 : List UInt8 → Digest) (manager : CatastrophicManager)
    (request : FrameRequest) (clock : SystemTime) :
    (manager.handleFrame sha256 request clock).1 = isCatastrophicOverride request.pfpBytes := by
  unfold handleFrame
  cases isCatastrophicOverride request.pfpBytes <;> rfl

end CatastrophicManager

namespace BindFrame

variable {buf : List UInt8} {f : BindFrame}

theorem hasPfp_of_decode (h : decode buf = .ok f) : f.header.hasPfp = announcesPfp buf := by
  rw [BindHeader.hasPfp, flags_of_decode h, announcesPfp]

/-- The PFP of a parsed frame is read right after the header, if the flags announce one. -/
theorem pfp_of_decode (h : decode buf = .ok f) :
    f.pfp = if announcesPfp buf then
        some (PfpHeader.decode (readArray pfpSize buf headerSize))
      else none := by
  rw [← hasPfp_of_decode h]
  obtain ⟨-, -, -, -, offset, offset', hpfp, -⟩ := decode_eq_ok_iff.1 h
  rcases decodePfp_eq_ok_iff.1 hpfp with ⟨hp, hnone, -⟩ | ⟨hp, -, hsome, -⟩
  · rw [hp, hnone]
    rfl
  · rw [hp, hsome]
    rfl

/-- An announced PFP is there in full. -/
theorem length_of_announcesPfp (h : decode buf = .ok f) (hp : announcesPfp buf = true) :
    headerSize + pfpSize ≤ buf.length := by
  obtain ⟨-, -, htot, -⟩ := decode_eq_ok_iff.1 h
  rw [BindHeader.totalFrameLength_eq, hasPfp_of_decode h, if_pos hp] at htot
  omega

/-- **The three tests agree.**  A parsed frame triggers the hard override if and only if its flags
announce a PFP and the bit test of the four bytes after the header does.  If there is a PFP, these
bytes are there, and encoding the PFP again gives bytes that pass the test just as they do; so a
manager triggers on the one exactly when it triggers on the other, which is when the frame does. -/
theorem isCatastrophicOverride_iff_wire (buf : List UInt8) (f : BindFrame)
    (h : decode buf = .ok f) :
    (f.isCatastrophicOverride = true ↔
        announcesPfp buf = true ∧
          CatastrophicManager.isCatastrophicOverride (readArray pfpSize buf headerSize) = true) ∧
      ∀ pfp, f.pfp = some pfp →
        headerSize + pfpSize ≤ buf.length ∧
          CatastrophicManager.isCatastrophicOverride pfp.encode =
            CatastrophicManager.isCatastrophicOverride (readArray pfpSize buf headerSize) ∧
          ∀ (sha256 : List UInt8 → Digest) (manager : CatastrophicManager)
            (request : FrameRequest) (clock : SystemTime),
            (manager.handleFrame sha256 { request with pfpBytes := pfp.encode } clock).1 =
                (manager.handleFrame sha256
                  { request with pfpBytes := readArray pfpSize buf headerSize } clock).1 ∧
              ((manager.handleFrame sha256 { request with pfpBytes := pfp.encode } clock).1 = true ↔
                f.isCatastrophicOverride = true) := by
  have hpfp := pfp_of_decode h
  cases hp : announcesPfp buf with
  | false =>
      rw [hp, if_neg Bool.false_ne_true] at hpfp
      rw [isCatastrophicOverride, hpfp]
      refine ⟨by simp, fun pfp hsome => ?_⟩
      cases hsome
  | true =>
      rw [hp, if_pos rfl] at hpfp
      rw [isCatastrophicOverride, hpfp]
      refine ⟨?_, fun pfp hsome => ?_⟩
      · rw [CatastrophicManager.isCatastrophicOverride_eq]
        simp
      · obtain rfl := Option.some.inj hsome
        have htest : CatastrophicManager.isCatastrophicOverride
              (PfpHeader.decode (readArray pfpSize buf headerSize)).encode =
            CatastrophicManager.isCatastrophicOverride (readArray pfpSize buf headerSize) := by
          rw [CatastrophicManager.isCatastrophicOverride_encode,
            CatastrophicManager.isCatastrophicOverride_eq]
        refine ⟨length_of_announcesPfp h hp, htest, fun sha256 manager request clock => ?_⟩
        rw [CatastrophicManager.handleFrame_fst, CatastrophicManager.handleFrame_fst]
        refine ⟨htest, ?_⟩
        rw [CatastrophicManager.isCatastrophicOverride_encode]

/-- The bytes of a frame that asks for the hard override, with all reserved bits of its PFP set. -/
def overrideBytes : List UInt8 :=
  [0x01, 0x01, 0x08, 0x00, 0x00, 0x00, 0x00, 0x00, 0xCF, 0x14, 0xEE, 0xFF]

/-- The frame parsed from them. -/
def overrideFrame : BindFrame :=
  { header := BindHeader.new .data 1 flagPfpPresent 0 0
    pfp := some
      { PfpHeader.new .executive .catastrophic .moving .criticalEdge .external .hardOverride true
        with reserved := 31 }
    sap := none
    payload := [] }

/-- The PFP of this frame, handed to a manager after it was encoded again. -/
def encodedOverride : FrameRequest :=
  { pfpBytes := (PfpHeader.new .executive .catastrophic .moving .criticalEdge .external
      .hardOverride true).encode
    seqCounter := none
    sensorContext := none
    source := "tuck" }

/-- All three tests see the override, and the manager answers that it has triggered. -/
theorem isCatastrophicOverride_iff_wire_overrideBytes :
    overrideFrame.isCatastrophicOverride = true ∧
      (overrideFrame.isCatastrophicOverride = true ↔
        announcesPfp overrideBytes = true ∧
          CatastrophicManager.isCatastrophicOverride
            (readArray pfpSize overrideBytes headerSize) = true) ∧
      CatastrophicManager.isCatastrophicOverride encodedOverride.pfpBytes =
        CatastrophicManager.isCatastrophicOverride (readArray pfpSize overrideBytes headerSize) ∧
      (CatastrophicManager.new.handleFrame (fun _ => zeroDigest) encodedOverride none).1 =
        true := by
  obtain ⟨hwire, hencoded⟩ :=
    isCatastrophicOverride_iff_wire overrideBytes overrideFrame (by decide)
  obtain ⟨-, hsame, hhandle⟩ := hencoded _ rfl
  have htriggers : overrideFrame.isCatastrophicOverride = true := by decide
  exact ⟨htriggers, hwire, hsame,
    (hhandle (fun _ => zeroDigest) CatastrophicManager.new encodedOverride none).2.2 htriggers⟩

end BindFrame

end Bind19
