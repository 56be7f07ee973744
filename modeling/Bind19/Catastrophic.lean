/-
**The manager of hard overrides.**

A frame whose PFP has the catastrophic risk level and the hard-override flag is acted on at once.
The manager tests two fields in the raw bytes of the PFP; for a frame that passes it makes an
event with the time of day, sends it on the event bus and records it in the audit log.

The bus is a channel without a bound.  A send succeeds for as long as the receiver is there, and the
manager goes on to the audit log whether it does or not.  The lock of the audit log is taken to be
in order.  The managers that are cloned from each other share the channel and the log, so that they
are one manager here; this module is that manager as one thread sees it.

Main definitions:

* `Bind19.CatastrophicEvent.new` — the event of a frame;
* `Bind19.CatastrophicEventBus` — the channel of the event bus;
* `Bind19.CatastrophicManager` with `isCatastrophicOverride` and `handleFrame`.

Main results:

* `Bind19.CatastrophicManager.isCatastrophicOverride_eq` — the test of the raw bytes is the one of
  the parsed header;
* `Bind19.CatastrophicManager.effectiveOverride_iff` — **a frame that passes it has
  a catastrophic effective risk level exactly when its Replay-Enable bit is on**.
-/

import Bind19.AuditLog

set_option relaxedAutoImplicit false
set_option autoImplicit false

namespace Bind19

/-- A reading of the system clock: seconds and nanoseconds since the epoch, or nothing if the clock
is before it. -/
abbrev SystemTime := Option (UInt64 × UInt32)

/-- The arguments of a call that handles a frame. -/
structure FrameRequest where
  pfpBytes : Vector UInt8 pfpSize
  seqCounter : Option UInt16
  sensorContext : Option (List UInt8)
  source : String
  deriving DecidableEq

/-- The event of a frame.  A clock before the epoch reads as the epoch. -/
def CatastrophicEvent.new (request : FrameRequest) (clock : SystemTime) : CatastrophicEvent :=
  let now := clock.getD (0, 0)
  { timestamp := now.1
    timestampNanos := now.2
    pfpBytes := request.pfpBytes
    seqCounter := request.seqCounter
    sensorContext := request.sensorContext
    source := request.source }

/-! ### The event bus -/

/-- The channel of the event bus: what was sent and not yet received, and whether there is a
receiver. -/
structure CatastrophicEventBus where
  queue : List CatastrophicEvent
  receiverAlive : Bool
  deriving DecidableEq

namespace CatastrophicEventBus

/-- A new channel and its receiver. -/
def new : CatastrophicEventBus := { queue := [], receiverAlive := true }

/-- Send an event.  Without a receiver it comes back. -/
def send (bus : CatastrophicEventBus) (event : CatastrophicEvent) :
    Except CatastrophicEvent Unit × CatastrophicEventBus :=
  if bus.receiverAlive then (.ok (), { bus with queue := bus.queue ++ [event] })
  else (.error event, bus)

/-- Take the next event.  The receiver waits for one. -/
def recv (bus : CatastrophicEventBus) : Option (CatastrophicEvent × CatastrophicEventBus) :=
  if bus.receiverAlive then
    match bus.queue with
    | [] => none
    | event :: queue => some (event, { bus with queue })
  else none

/-- The receiver goes away, and the events that it has not received with it. -/
def dropReceiver (_bus : CatastrophicEventBus) : CatastrophicEventBus :=
  { queue := [], receiverAlive := false }

end CatastrophicEventBus

/-! ### The manager -/

/-- The event bus and the audit log. -/
structure CatastrophicManager where
  eventBus : CatastrophicEventBus
  auditLog : CatastrophicAuditLog
  deriving DecidableEq

namespace CatastrophicManager

/-- A new manager. -/
def new : CatastrophicManager :=
  { eventBus := CatastrophicEventBus.new, auditLog := CatastrophicAuditLog.new }

/-- Whether the bytes of a PFP trigger the hard override. -/
def isCatastrophicOverride (pfpBytes : Vector UInt8 pfpSize) : Bool :=
  let riskLevel := (pfpBytes.get 2 >>> 2) &&& 0b11
  let overrideFlag := (pfpBytes.get 3 >>> 1) &&& 0b1
  riskLevel == 3 && overrideFlag == 1

/-- Handle a frame: whether it triggers the hard override, and the manager afterwards. -/
def handleFrame (sha256 : List UInt8 → Digest) (manager : CatastrophicManager)
    (request : FrameRequest) (clock : SystemTime) : Bool × CatastrophicManager :=
  if !isCatastrophicOverride request.pfpBytes then (false, manager)
  else
    let event := CatastrophicEvent.new request clock
    let eventBus := (manager.eventBus.send event).2
    let auditLog := (manager.auditLog.append sha256 event).2
    (true, { eventBus, auditLog })

/-- The entries of the audit log. -/
def auditEntries (manager : CatastrophicManager) : List AuditEntry := manager.auditLog.entries

/-- How many triggers there were. -/
def totalTriggers (manager : CatastrophicManager) : UInt64 := manager.auditLog.totalTriggers

/-- Whether the chain of the audit log is verified. -/
def verifyAuditChain (sha256 : List UInt8 → Digest) (manager : CatastrophicManager) : Bool :=
  manager.auditLog.verifyChain sha256

/-! ### The raw bytes and the parsed header -/

theorem riskLevel_beq_catastrophic (b : UInt8) :
    (RiskLevel.fromBits ((b >>> 2) &&& 0b11) == .catastrophic) = ((b >>> 2) &&& 0b11 == 3) := by
  have key : ∀ v : BitVec 8,
      (RiskLevel.fromBits ((UInt8.ofBitVec v >>> 2) &&& 0b11) == .catastrophic) =
        ((UInt8.ofBitVec v >>> 2) &&& 0b11 == 3) := by
    decide +kernel
  exact key b.toBitVec

theorem overrideFlag_beq_hardOverride (b : UInt8) :
    (OverrideFlag.fromBit ((b &&& ((1 : UInt8) <<< 1)) != 0) == .hardOverride) =
      ((b >>> 1) &&& 0b1 == 1) := by
  have key : ∀ v : BitVec 8,
      (OverrideFlag.fromBit ((UInt8.ofBitVec v &&& ((1 : UInt8) <<< 1)) != 0) == .hardOverride) =
        ((UInt8.ofBitVec v >>> 1) &&& 0b1 == 1) := by
    decide +kernel
  exact key b.toBitVec

/-- The test of the raw bytes is the one of the parsed header. -/
theorem isCatastrophicOverride_eq (pfpBytes : Vector UInt8 pfpSize) :
    isCatastrophicOverride pfpBytes = (PfpHeader.decode pfpBytes).isCatastrophicOverride := by
  rw [isCatastrophicOverride, PfpHeader.isCatastrophicOverride, PfpHeader.decode]
  dsimp only
  rw [riskLevel_beq_catastrophic, overrideFlag_beq_hardOverride]
  rfl

/-- The Replay-Enable bit of a PFP. -/
def replayEnableBit (pfpBytes : Vector UInt8 pfpSize) : Bool :=
  (pfpBytes.get 3 &&& ((1 : UInt8) <<< 2)) != 0

/-- The PFP has a catastrophic effective risk level and the hard-override flag. -/
def EffectiveOverride (pfpBytes : Vector UInt8 pfpSize) : Prop :=
  (PfpHeader.decode pfpBytes).effectiveRiskLevel = .catastrophic ∧
    (PfpHeader.decode pfpBytes).overrideFlag = .hardOverride

instance (pfpBytes : Vector UInt8 pfpSize) : Decidable (EffectiveOverride pfpBytes) :=
  inferInstanceAs (Decidable (_ ∧ _))

/-- **A frame that passes the test has a catastrophic effective risk level exactly when its
Replay-Enable bit is on.** -/
theorem effectiveOverride_iff {pfpBytes : Vector UInt8 pfpSize}
    (h : isCatastrophicOverride pfpBytes = true) :
    EffectiveOverride pfpBytes ↔ replayEnableBit pfpBytes = true := by
  rw [isCatastrophicOverride_eq, PfpHeader.isCatastrophicOverride, Bool.and_eq_true, beq_iff_eq,
    beq_iff_eq] at h
  have hbit : replayEnableBit pfpBytes = (PfpHeader.decode pfpBytes).replayEnable := rfl
  rw [EffectiveOverride, hbit]
  cases hreplay : (PfpHeader.decode pfpBytes).replayEnable with
  | true =>
      rw [PfpHeader.effectiveRiskLevel_of_replayEnable hreplay]
      simp [h]
  | false =>
      -- rule 6 forces the level down
      have hle := PfpHeader.effectiveRiskLevel_le_medium hreplay
      constructor
      · rintro ⟨hrisk, -⟩
        rw [hrisk] at hle
        exact absurd hle (by decide)
      · intro hfalse
        cases hfalse

end CatastrophicManager

end Bind19
