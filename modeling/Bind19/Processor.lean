/-
**The frame processor.**

The processor decides for a parsed frame whether it goes through the replay cache.  A frame without
a SAP has no sequence number and is let through unchecked; a frame whose PFP has the Replay-Enable
bit off is let through unchecked as well, and rule 6 is meant to make up for it by forcing its risk
level down; every other frame is checked.

The two decisions are taken in different places.  The processor looks at the SAP and at the bit,
rule 6 only at the bit.  A frame that has a PFP with the bit on and no SAP falls between them: it
is not checked and not forced down either.  This module states exactly which frames do.

Main definitions:

* `Bind19.FrameProcessResult`, `Bind19.FrameProcessor` with `processFrame`, `checkFrame`, …;
* `Bind19.BindFrame.bypassesReplayCheck` — the frames the processor lets through unchecked;
* `Bind19.BindFrame.isUncheckedAndNotDowngraded` — the frames that fall between the two decisions.

Main results:

* `Bind19.FrameProcessor.processFrame_of_bypass`, `Bind19.FrameProcessor.processFrame_of_checked` —
  what the processor does with a frame;
* `Bind19.FrameProcessor.unchecked_risk_le_medium_iff` — **the frames that reach the receiver
  unchecked at a risk level above medium**.
-/

import Bind19.Frame
import Bind19.ReplayCache

set_option relaxedAutoImplicit false
set_option autoImplicit false

namespace Bind19

/-- What becomes of a frame. -/
inductive FrameProcessResult
  | allowed
  | rejectedReplay
  | rejectedCacheFull
  | noSap
  deriving DecidableEq, Repr

namespace FrameProcessResult

/-- Whether the frame is let through. -/
def isAllowed : FrameProcessResult → Bool
  | allowed | noSap => true
  | _ => false

/-- Whether the frame is held back. -/
def isRejected : FrameProcessResult → Bool
  | rejectedReplay | rejectedCacheFull => true
  | _ => false

/-- The answer of the replay cache as the fate of a frame. -/
def ofCheck : ReplayCheckResult → FrameProcessResult
  | .allowed => allowed
  | .rejected => rejectedReplay
  | .cacheFull => rejectedCacheFull

end FrameProcessResult

/-- The processor of a tenant. -/
structure FrameProcessor where
  replayCache : ReplayCache
  tenantId : UInt64

namespace FrameProcessor

/-- A processor with an empty cache. -/
def new (tenantId : UInt64) : FrameProcessor := { replayCache := ReplayCache.new, tenantId }

/-- A processor with an empty cache and a given time to live. -/
def withTtl (tenantId : UInt64) (ttl : Duration) : FrameProcessor :=
  { replayCache := ReplayCache.withTtl ttl, tenantId }

/-- Whether a frame is to be checked.  A frame without a PFP is. -/
def replayEnable (frame : BindFrame) : Bool :=
  (frame.pfp.map PfpHeader.replayEnable).getD true

/-- The key of a source of this tenant. -/
def key (p : FrameProcessor) (sourceId : UInt64) : ReplayKey :=
  { tenantId := p.tenantId, sourceId }

/-- Process a frame from a source. -/
def processFrame (p : FrameProcessor) (frame : BindFrame) (sourceId : UInt64) (now : Instant) :
    FrameProcessResult × FrameProcessor :=
  match frame.sap with
  | none => (.noSap, p)
  | some sap =>
      if !replayEnable frame then (.allowed, p)
      else
        let (result, replayCache) :=
          p.replayCache.checkAndUpdate (p.key sourceId) sap.seqCounter now
        (.ofCheck result, { p with replayCache })

/-- What processing a frame would answer. -/
def checkFrame (p : FrameProcessor) (frame : BindFrame) (sourceId : UInt64) : FrameProcessResult :=
  match frame.sap with
  | none => .noSap
  | some sap =>
      if !replayEnable frame then .allowed
      else .ofCheck (p.replayCache.checkOnly (p.key sourceId) sap.seqCounter)

/-- Drop the expired sources of all tenants. -/
def cleanupExpired (p : FrameProcessor) (clock : ReplayKey → Instant) : ℕ × FrameProcessor :=
  let (removed, replayCache) := p.replayCache.cleanupExpired clock
  (removed, { p with replayCache })

/-- The last sequence number on record for a source. -/
def lastSeq (p : FrameProcessor) (sourceId : UInt64) : Option UInt16 :=
  p.replayCache.lastSeq (p.key sourceId)

/-- Drop a source. -/
def removeSource (p : FrameProcessor) (sourceId : UInt64) : Bool × FrameProcessor :=
  let (found, replayCache) := p.replayCache.remove (p.key sourceId)
  (found, { p with replayCache })

end FrameProcessor

/-! ### Which frames are checked -/

namespace BindFrame

/-- The frame is let through unchecked: it has no SAP, or its Replay-Enable bit is off. -/
def bypassesReplayCheck (f : BindFrame) : Bool := f.sap.isNone || f.isReplayDisabled

/-- The frame has no SAP, and a PFP with the Replay-Enable bit on and a risk level above medium. -/
def isUncheckedAndNotDowngraded (f : BindFrame) : Bool :=
  f.sap.isNone &&
    match f.pfp with
    | none => false
    | some pfp => pfp.replayEnable && !decide (pfp.riskLevel ≤ .medium)

end BindFrame

namespace FrameProcessor

theorem replayEnable_eq (f : BindFrame) : replayEnable f = !f.isReplayDisabled := by
  rw [replayEnable, BindFrame.isReplayDisabled]
  cases f.pfp <;> simp

/-- A frame that is not checked is let through, and nothing is recorded. -/
theorem processFrame_of_bypass {f : BindFrame} (hf : f.bypassesReplayCheck = true)
    (p : FrameProcessor) (sourceId : UInt64) (now : Instant) :
    (p.processFrame f sourceId now).1.isAllowed = true ∧ (p.processFrame f sourceId now).2 = p := by
  rw [BindFrame.bypassesReplayCheck, Bool.or_eq_true] at hf
  unfold processFrame
  rw [replayEnable_eq, Bool.not_not]
  cases hsap : f.sap with
  | none => exact ⟨rfl, rfl⟩
  | some sap =>
      rcases hf with hf | hf
      · rw [hsap] at hf
        cases hf
      · dsimp only
        rw [if_pos hf]
        exact ⟨rfl, rfl⟩

/-- Every other frame has a SAP, and its fate is the answer of the replay cache. -/
theorem processFrame_of_checked {f : BindFrame} (hf : f.bypassesReplayCheck = false)
    (p : FrameProcessor) (sourceId : UInt64) (now : Instant) :
    ∃ sap, f.sap = some sap ∧
      (p.processFrame f sourceId now).1 =
        .ofCheck (p.replayCache.checkAndUpdate (p.key sourceId) sap.seqCounter now).1 ∧
      (p.processFrame f sourceId now).2.replayCache =
        (p.replayCache.checkAndUpdate (p.key sourceId) sap.seqCounter now).2 := by
  rw [BindFrame.bypassesReplayCheck, Bool.or_eq_false_iff] at hf
  obtain ⟨hsap, hbit⟩ := hf
  unfold processFrame
  rw [replayEnable_eq, Bool.not_not, hbit]
  cases h : f.sap with
  | none =>
      rw [h] at hsap
      cases hsap
  | some sap => exact ⟨sap, rfl, rfl, rfl⟩

/-! ### Rule 6 and the frames that are not checked -/

/-- Production mode. -/
def productionConfig : BindConfig := { debugMode := false }

/-- An unchecked frame is above medium in production mode exactly when it falls between the two
decisions. -/
theorem risk_le_medium_iff {f : BindFrame} (hf : f.bypassesReplayCheck = true) :
    (∀ risk, f.effectiveRiskLevelWithConfig productionConfig = some risk → risk ≤ .medium) ↔
      f.isUncheckedAndNotDowngraded = false := by
  unfold BindFrame.bypassesReplayCheck BindFrame.isReplayDisabled at hf
  unfold BindFrame.effectiveRiskLevelWithConfig BindFrame.isUncheckedAndNotDowngraded
  cases hpfp : f.pfp with
  | none => simp
  | some pfp =>
      rw [hpfp] at hf
      dsimp only at hf ⊢
      rw [if_pos (show productionConfig.rule6Enabled = true from rfl)]
      cases hbit : pfp.replayEnable with
      | false =>
          -- rule 6 forces the level down
          have hle := PfpHeader.effectiveRiskLevel_le_medium hbit
          simp [hle]
      | true =>
          rw [hbit, Bool.not_true, Bool.or_false] at hf
          rw [PfpHeader.effectiveRiskLevel_of_replayEnable hbit, hf]
          simp

/-- **The frames that reach the receiver unchecked at a risk level above medium.**  Whatever the
state of the processor and the source, a frame that is let through without a replay check has, in
production mode, no effective risk level or one of at most medium, unless it has no SAP and a PFP
with the Replay-Enable bit on and a risk level above medium; and then it has not.  Every frame is
covered, those that the parser accepts among them. -/
theorem unchecked_risk_le_medium_iff (p : FrameProcessor) (f : BindFrame) (sourceId : UInt64)
    (now : Instant) :
    ((p.processFrame f sourceId now).1.isAllowed = true → f.bypassesReplayCheck = true →
        ∀ risk, f.effectiveRiskLevelWithConfig productionConfig = some risk → risk ≤ .medium) ↔
      f.isUncheckedAndNotDowngraded = false := by
  by_cases hbypass : f.bypassesReplayCheck = true
  · have hallowed := (processFrame_of_bypass hbypass p sourceId now).1
    rw [← risk_le_medium_iff hbypass]
    exact ⟨fun h => h hallowed hbypass, fun h _ _ => h⟩
  · -- a checked frame has a SAP, so it is not one of the exceptions
    refine ⟨fun _ => ?_, fun _ _ h => absurd h hbypass⟩
    rw [BindFrame.bypassesReplayCheck, Bool.or_eq_true, not_or] at hbypass
    rw [BindFrame.isUncheckedAndNotDowngraded, Bool.eq_false_of_not_eq_true hbypass.1,
      Bool.false_and]

/-- An energy-saving frame: a PFP with a catastrophic risk level and the Replay-Enable bit on, no
SAP. -/
def energySavingFrame : BindFrame :=
  { header := BindHeader.new .data 1 flagPfpPresent 0 0
    pfp := some (PfpHeader.new .executive .catastrophic .moving .criticalEdge .external
      .normal true)
    sap := none
    payload := [] }

/-- The bytes of the energy-saving frame are parsed, the frame is let through unchecked, and its
effective risk level in production mode is catastrophic. -/
theorem processFrame_energySavingFrame :
    BindFrame.decode [0x01, 0x01, 0x08, 0, 0, 0, 0, 0, 0xCF, 0x14, 0xEE, 0x05]
        = .ok energySavingFrame ∧
      ((new 1).processFrame energySavingFrame 100 0).1.isAllowed = true ∧
      energySavingFrame.sap = none ∧
      energySavingFrame.effectiveRiskLevelWithConfig productionConfig = some .catastrophic ∧
      ¬ RiskLevel.catastrophic ≤ RiskLevel.medium := by
  decide

end FrameProcessor

end Bind19
