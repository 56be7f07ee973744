/-
**The gate of a real-time controller.**

A controller decides for every frame, before it looks at the payload, whether to let it through.
It hands the PFP to the manager of hard overrides; a frame that triggers one is acted on at once.
Every other frame goes to the frame processor, and is let through unless the processor holds it
back.  A frame without a PFP is left to a default policy, and so is its SAP, if it has one.

What the gate is for is told by a second gate, the ledger, which keeps all the numbers that it has
let through and looks back at them.  The gate itself keeps one number for each source, and a log of
bounded length; this module shows that its decisions are those of the ledger in every run, and what
is left of the overrides in the log.  The gate makes its manager itself and keeps no receiver, so
its event bus is closed from the start.

Main definitions:

* `Bind19.TuckDecision`, `Bind19.TuckGate` with `new` and `decide`;
* `Bind19.TuckLedger` — the gate that keeps all numbers;
* `Bind19.FrameProcessor.Remembers` — the processor knows enough of a ledger.

Main results:

* `Bind19.TuckGate.decide_of_remembers` — one decision of the gate is one of the ledger;
* `Bind19.TuckGate.run_decides` — **the gate decides as the ledger does**;
* `Bind19.TuckGate.run_audited` — **what a run leaves in the log**.
-/

import Bind19.AuditHistory
import Bind19.FrameOverride
import Bind19.ProcessorPreview
import Bind19.ReplayExpiry

set_option relaxedAutoImplicit false
set_option autoImplicit false

namespace Bind19

/-- What the gate decides. -/
inductive TuckDecision
  /-- The frame is let through. -/
  | allow
  /-- The frame is held back: it is a replay, or there is no room for its source. -/
  | reject
  /-- The frame triggers the hard override. -/
  | catastrophicOverride
  /-- The frame has no PFP and is left to a default policy. -/
  | noSap
  deriving DecidableEq, Repr

/-- The gate. -/
structure TuckGate where
  processor : FrameProcessor
  catastrophic : CatastrophicManager

/-- A frame, its source, and the readings of the two clocks. -/
structure TuckCall where
  frame : BindFrame
  sourceId : UInt64
  clock : SystemTime
  now : Instant

namespace TuckGate

/-- A new gate.  The receiver of its event bus goes away at once. -/
def new (tenantId : UInt64) : TuckGate :=
  { processor := FrameProcessor.new tenantId
    catastrophic := { CatastrophicManager.new with
      eventBus := CatastrophicManager.new.eventBus.dropReceiver } }

/-- What the gate hands to the manager of hard overrides. -/
def frameRequest (pfp : PfpHeader) (frame : BindFrame) : FrameRequest :=
  { pfpBytes := pfp.encode
    seqCounter := frame.sap.map SapHeader.seqCounter
    sensorContext := none
    source := "Tuck hard-real-time decision" }

variable (sha256 : List UInt8 → Digest)

/-- Decide about a frame. -/
def decide (gate : TuckGate) (call : TuckCall) : TuckDecision × TuckGate :=
  match call.frame.pfp with
  | none => (.noSap, gate)
  | some pfp =>
      let (triggered, catastrophic) :=
        gate.catastrophic.handleFrame sha256 (frameRequest pfp call.frame) call.clock
      let gate := { gate with catastrophic }
      if triggered then (.catastrophicOverride, gate)
      else
        let (result, processor) := gate.processor.processFrame call.frame call.sourceId call.now
        let gate := { gate with processor }
        if result.isRejected then (.reject, gate)
        else
          -- the level that rule 6 leaves is for later; the decision does not depend on it
          let _effectiveRisk := pfp.effectiveRiskLevel
          (.allow, gate)

end TuckGate

/-! ### A gate that remembers -/

/-- What a gate has let through after a check: the numbers, each with its source. -/
abbrev TuckLedger := List (UInt64 × UInt16)

namespace TuckLedger

/-- The numbers let through from a source. -/
def numbers (ledger : TuckLedger) (sourceId : UInt64) : List UInt16 :=
  (ledger.filter fun a => a.1 == sourceId).map Prod.snd

/-- The sources that a number was let through from. -/
def sources (ledger : TuckLedger) : Finset UInt64 := (ledger.map Prod.fst).toFinset

/-- The number exceeds all that were let through from its source, and there is room for the source
if it is a new one. -/
def Admits (ledger : TuckLedger) (sourceId : UInt64) (seq : UInt16) : Prop :=
  (∀ n ∈ ledger.numbers sourceId, n < seq) ∧
    (sourceId ∈ ledger.sources ∨ ledger.sources.card < replayCacheMaxCapacity)

instance (ledger : TuckLedger) (sourceId : UInt64) (seq : UInt16) :
    Decidable (ledger.Admits sourceId seq) :=
  -- the numbers of the source are looked at, not all there are
  @instDecidableAnd _ _ (List.decidableBAll (· < seq) (ledger.numbers sourceId)) inferInstance

/-- The gate as it ought to be: it looks back at everything that it has let through. -/
def decide (ledger : TuckLedger) (call : TuckCall) : TuckDecision × TuckLedger :=
  match call.frame.pfp with
  | none => (.noSap, ledger)
  | some pfp =>
      if pfp.isCatastrophicOverride then (.catastrophicOverride, ledger)
      else
        match call.frame.sap with
        | none => (.allow, ledger)
        | some sap =>
            if !pfp.replayEnable then (.allow, ledger)
            else if ledger.Admits call.sourceId sap.seqCounter then
              (.allow, ledger ++ [(call.sourceId, sap.seqCounter)])
            else (.reject, ledger)

variable {ledger : TuckLedger} {sourceId sourceId' : UInt64} {seq : UInt16}

theorem numbers_concat (ledger : TuckLedger) (sourceId sourceId' : UInt64) (seq : UInt16) :
    numbers (ledger ++ [(sourceId, seq)]) sourceId' =
      if sourceId' = sourceId then ledger.numbers sourceId' ++ [seq]
      else ledger.numbers sourceId' := by
  rw [numbers, List.filter_append, List.map_append]
  by_cases h : sourceId' = sourceId
  · rw [if_pos h, List.filter_cons_of_pos (by simp [h])]
    rfl
  · rw [if_neg h, List.filter_cons_of_neg (by simpa using fun h' => h h'.symm), List.filter_nil,
      List.map_nil, List.append_nil]
    rfl

theorem mem_sources_iff : sourceId ∈ ledger.sources ↔ ledger.numbers sourceId ≠ [] := by
  rw [sources, List.mem_toFinset, numbers, Ne, List.map_eq_nil_iff, List.filter_eq_nil_iff]
  simp

theorem card_sources_concat (ledger : TuckLedger) (sourceId : UInt64) (seq : UInt16) :
    (sources (ledger ++ [(sourceId, seq)])).card =
      if sourceId ∈ ledger.sources then ledger.sources.card else ledger.sources.card + 1 := by
  rw [sources, List.map_append, List.toFinset_append, Finset.union_comm]
  change (insert sourceId ∅ ∪ ledger.sources).card = _
  rw [Finset.insert_union, Finset.empty_union]
  split
  · rw [Finset.insert_eq_of_mem ‹_›]
  · rw [Finset.card_insert_of_notMem ‹_›]

end TuckLedger

/-! ### The gate remembers enough -/

namespace FrameProcessor

/-- The cache has on record the last number of each source in the ledger, where the numbers
ascend. -/
structure Remembers (p : FrameProcessor) (ledger : TuckLedger) : Prop where
  lastSeq : ∀ sourceId, p.lastSeq sourceId = (ledger.numbers sourceId).getLast?
  ascending : ∀ sourceId, (ledger.numbers sourceId).Pairwise (· < ·)
  len : p.replayCache.len = ledger.sources.card

variable {p : FrameProcessor} {ledger : TuckLedger} {sourceId : UInt64} {seq : UInt16}
  {now : Instant}

theorem remembers_new (tenantId : UInt64) : (new tenantId).Remembers [] where
  lastSeq _ := rfl
  ascending _ := List.Pairwise.nil
  len := rfl

/-- The cache accepts what the ledger admits. -/
theorem Remembers.fresh_iff (h : p.Remembers ledger) :
    p.replayCache.Fresh (p.key sourceId) seq ↔ ledger.Admits sourceId seq := by
  have hlast : p.replayCache.lastSeq (p.key sourceId) = (ledger.numbers sourceId).getLast? :=
    h.lastSeq sourceId
  rw [ReplayCache.Fresh, TuckLedger.Admits, TuckLedger.mem_sources_iff, hlast, h.len]
  cases hnumbers : (ledger.numbers sourceId).getLast? with
  | none =>
      rw [List.getLast?_eq_none_iff] at hnumbers
      simp [hnumbers]
  | some last =>
      have hne : ledger.numbers sourceId ≠ [] := by
        intro hnil
        rw [hnil] at hnumbers
        cases hnumbers
      refine ⟨fun hlt => ⟨fun n hn => ?_, Or.inl hne⟩, fun hadmits => ?_⟩
      · -- the last number of the source is the greatest
        rcases Ascending.eq_or_rel_last (h.ascending sourceId) hnumbers n hn with rfl | hlt'
        · exact hlt
        · exact UInt16.lt_trans hlt' hlt
      · exact hadmits.1 last (List.mem_of_getLast? hnumbers)

/-- What an accepted number preserves. -/
theorem Remembers.register (h : p.Remembers ledger) (hadmits : ledger.Admits sourceId seq)
    (now : Instant) :
    Remembers { p with replayCache := p.replayCache.register (p.key sourceId) seq now }
      (ledger ++ [(sourceId, seq)]) := by
  have hkey : ∀ sourceId', p.key sourceId' = p.key sourceId ↔ sourceId' = sourceId :=
    fun sourceId' => ⟨congrArg ReplayKey.sourceId, congrArg p.key⟩
  refine ⟨fun sourceId' => ?_, fun sourceId' => ?_, ?_⟩
  · change (p.replayCache.register (p.key sourceId) seq now).lastSeq (p.key sourceId') = _
    rw [ReplayCache.lastSeq_register, TuckLedger.numbers_concat]
    simp only [hkey]
    split
    · rw [List.getLast?_concat]
    · exact h.lastSeq sourceId'
  · rw [TuckLedger.numbers_concat]
    split
    · rename_i hsource
      rw [hsource]
      refine List.pairwise_append.2 ⟨h.ascending sourceId, List.pairwise_singleton _ _, ?_⟩
      intro n hn n' hn'
      obtain rfl := List.mem_singleton.1 hn'
      exact hadmits.1 n hn
    · exact h.ascending sourceId'
  · change (p.replayCache.register (p.key sourceId) seq now).len = _
    have hsome : (p.replayCache.lastSeq (p.key sourceId)).isSome = true ↔
        sourceId ∈ ledger.sources := by
      rw [TuckLedger.mem_sources_iff]
      have hlast := h.lastSeq sourceId
      rw [FrameProcessor.lastSeq] at hlast
      rw [hlast, List.getLast?_isSome]
    rw [ReplayCache.len_register, TuckLedger.card_sources_concat, h.len]
    simp only [hsome]

/-- A checked frame is let through exactly when the ledger admits its number, and then both keep
it. -/
theorem Remembers.checkAndUpdate (h : p.Remembers ledger) (sourceId : UInt64) (seq : UInt16)
    (now : Instant) :
    (FrameProcessResult.ofCheck
        (p.replayCache.checkAndUpdate (p.key sourceId) seq now).1).isRejected =
          !Decidable.decide (ledger.Admits sourceId seq) ∧
      Remembers
        { p with replayCache := (p.replayCache.checkAndUpdate (p.key sourceId) seq now).2 }
        (if ledger.Admits sourceId seq then ledger ++ [(sourceId, seq)] else ledger) := by
  rcases ReplayCache.checkAndUpdate_cases p.replayCache (p.key sourceId) seq now with
    ⟨hfresh, heq⟩ | ⟨result, hresult, hfresh, heq⟩
  · have hadmits := h.fresh_iff.1 hfresh
    rw [heq, if_pos hadmits]
    exact ⟨by simp [hadmits, FrameProcessResult.ofCheck, FrameProcessResult.isRejected],
      h.register hadmits now⟩
  · have hadmits := mt h.fresh_iff.2 hfresh
    rw [heq, if_neg hadmits]
    refine ⟨?_, h⟩
    cases result with
    | allowed => exact absurd rfl hresult
    | rejected | cacheFull =>
        simp [hadmits, FrameProcessResult.ofCheck, FrameProcessResult.isRejected]

end FrameProcessor

namespace TuckGate

variable {sha256 : List UInt8 → Digest} {gate : TuckGate} {call : TuckCall} {pfp : PfpHeader}

theorem decide_of_noPfp (h : call.frame.pfp = none) : gate.decide sha256 call = (.noSap, gate) := by
  rw [decide, h]

theorem decide_of_override (hpfp : call.frame.pfp = some pfp)
    (hoverride : pfp.isCatastrophicOverride = true) :
    gate.decide sha256 call =
      (.catastrophicOverride,
        { gate with
          catastrophic := (gate.catastrophic.handleFrame sha256 (frameRequest pfp call.frame)
            call.clock).2 }) := by
  have htriggered :
      (gate.catastrophic.handleFrame sha256 (frameRequest pfp call.frame) call.clock).1 = true := by
    rw [CatastrophicManager.handleFrame_fst, frameRequest,
      CatastrophicManager.isCatastrophicOverride_encode, hoverride]
  rw [decide, hpfp]
  dsimp only
  rw [if_pos htriggered]

theorem decide_of_processed (hpfp : call.frame.pfp = some pfp)
    (hoverride : pfp.isCatastrophicOverride = false) :
    gate.decide sha256 call =
      (if (gate.processor.processFrame call.frame call.sourceId call.now).1.isRejected then .reject
        else .allow,
        { gate with
          processor := (gate.processor.processFrame call.frame call.sourceId call.now).2 }) := by
  have hquiet :
      gate.catastrophic.handleFrame sha256 (frameRequest pfp call.frame) call.clock =
        (false, gate.catastrophic) := by
    rw [CatastrophicManager.handleFrame, frameRequest,
      CatastrophicManager.isCatastrophicOverride_encode, hoverride]
    rfl
  rw [decide, hpfp]
  dsimp only
  rw [hquiet]
  dsimp only
  rw [if_neg Bool.false_ne_true]
  split <;> rfl

/-- What the processor does with a frame that is checked. -/
theorem processFrame_of_sap {p : FrameProcessor} {frame : BindFrame} {sap : SapHeader}
    (hpfp : frame.pfp = some pfp) (hsap : frame.sap = some sap) (hbit : pfp.replayEnable = true)
    (sourceId : UInt64) (now : Instant) :
    p.processFrame frame sourceId now =
      (.ofCheck (p.replayCache.checkAndUpdate (p.key sourceId) sap.seqCounter now).1,
        { p with
          replayCache :=
            (p.replayCache.checkAndUpdate (p.key sourceId) sap.seqCounter now).2 }) := by
  rw [FrameProcessor.processFrame, hsap]
  dsimp only
  rw [FrameProcessor.replayEnable, hpfp, Option.map_some, Option.getD_some, hbit]
  rfl

/-- What the processor does with a frame that is not checked. -/
theorem processFrame_of_unchecked {p : FrameProcessor} {frame : BindFrame}
    (hpfp : frame.pfp = some pfp) (h : frame.sap = none ∨ pfp.replayEnable = false)
    (sourceId : UInt64) (now : Instant) :
    (p.processFrame frame sourceId now).1.isRejected = false ∧
      (p.processFrame frame sourceId now).2 = p := by
  rw [FrameProcessor.processFrame]
  cases hsap : frame.sap with
  | none => exact ⟨rfl, rfl⟩
  | some sap =>
      have hbit : pfp.replayEnable = false := by
        rcases h with h | h
        · rw [hsap] at h
          cases h
        · exact h
      dsimp only
      rw [FrameProcessor.replayEnable, hpfp, Option.map_some, Option.getD_some, hbit]
      exact ⟨rfl, rfl⟩

/-- What a frame that is handed to the processor preserves. -/
theorem decide_of_remembers_processed {ledger : TuckLedger} (h : gate.processor.Remembers ledger)
    (hpfp : call.frame.pfp = some pfp) (hoverride : pfp.isCatastrophicOverride = false) :
    (gate.decide sha256 call).1 = (ledger.decide call).1 ∧
      (gate.decide sha256 call).2.processor.Remembers (ledger.decide call).2 := by
  rw [decide_of_processed hpfp hoverride, TuckLedger.decide, hpfp]
  dsimp only
  rw [hoverride, if_neg Bool.false_ne_true]
  cases hsap : call.frame.sap with
  | none =>
      obtain ⟨hallowed, hsame⟩ := processFrame_of_unchecked (p := gate.processor) hpfp
        (Or.inl hsap) call.sourceId call.now
      rw [hallowed, hsame]
      exact ⟨rfl, h⟩
  | some sap =>
      cases hbit : pfp.replayEnable with
      | false =>
          obtain ⟨hallowed, hsame⟩ := processFrame_of_unchecked (p := gate.processor) hpfp
            (Or.inr hbit) call.sourceId call.now
          rw [hallowed, hsame]
          exact ⟨rfl, h⟩
      | true =>
          obtain ⟨hrejected, hkept⟩ := h.checkAndUpdate call.sourceId sap.seqCounter call.now
          rw [processFrame_of_sap hpfp hsap hbit]
          dsimp only
          rw [Bool.not_true, if_neg Bool.false_ne_true, hrejected]
          by_cases hadmits : ledger.Admits call.sourceId sap.seqCounter
          · rw [if_pos hadmits] at hkept ⊢
            exact ⟨by simp [hadmits], hkept⟩
          · rw [if_neg hadmits] at hkept ⊢
            exact ⟨by simp [hadmits], hkept⟩

/-- **One decision.**  The gate decides as the ledger does. -/
theorem decide_of_remembers {ledger : TuckLedger} (h : gate.processor.Remembers ledger)
    (call : TuckCall) :
    (gate.decide sha256 call).1 = (ledger.decide call).1 ∧
      (gate.decide sha256 call).2.processor.Remembers (ledger.decide call).2 := by
  cases hpfp : call.frame.pfp with
  | none =>
      rw [decide_of_noPfp hpfp, TuckLedger.decide, hpfp]
      exact ⟨rfl, h⟩
  | some pfp =>
      cases hoverride : pfp.isCatastrophicOverride with
      | true =>
          rw [decide_of_override hpfp hoverride, TuckLedger.decide, hpfp]
          dsimp only
          rw [if_pos hoverride]
          exact ⟨rfl, h⟩
      | false => exact decide_of_remembers_processed h hpfp hoverride

/-- What a run of decisions preserves. -/
theorem remembers_final (sha256 : List UInt8 → Digest) (tenantId : UInt64)
    (calls : List TuckCall) :
    (Transcript.transcript (decide sha256) (new tenantId) calls).map Exchange.answer =
        (Transcript.transcript TuckLedger.decide [] calls).map Exchange.answer ∧
      (Transcript.final (decide sha256) (new tenantId) calls).processor.Remembers
        (Transcript.final TuckLedger.decide [] calls) := by
  have hstep : ∀ (gate : TuckGate) (ledger : TuckLedger) call, gate.processor.Remembers ledger →
      (gate.decide sha256 call).1 = (ledger.decide call).1 ∧
        (gate.decide sha256 call).2.processor.Remembers (ledger.decide call).2 :=
    fun _ _ call h => decide_of_remembers h call
  have hnew : (new tenantId).processor.Remembers [] := FrameProcessor.remembers_new tenantId
  exact Transcript.answers_of_simulation hstep hnew calls

/-- **The gate remembers enough.**  The gate keeps one number for each source, and decides every
sequence of frames as the gate does that keeps all the numbers it has let through: a frame without
a PFP is left to the default policy; a frame that triggers the hard override does so whatever came
before, be it a replay or not, and its number is not recorded; a frame that has no SAP or its
Replay-Enable bit off is let through; and any other frame is let through if and only if its number
exceeds all those let through from its source, and its source is one of them or one of fewer than
`replayCacheMaxCapacity`.  So the numbers let through from a source ascend strictly. -/
theorem run_decides (sha256 : List UInt8 → Digest) (tenantId : UInt64) (calls : List TuckCall) :
    (Transcript.transcript (decide sha256) (new tenantId) calls).map Exchange.answer =
        (Transcript.transcript TuckLedger.decide [] calls).map Exchange.answer ∧
      ∀ sourceId,
        ((Transcript.final TuckLedger.decide [] calls).numbers sourceId).Pairwise (· < ·) := by
  obtain ⟨hanswers, hfinal⟩ := remembers_final sha256 tenantId calls
  exact ⟨hanswers, hfinal.ascending⟩

end TuckGate

/-! ### What is left in the audit log -/

/-- The event that a frame triggers. -/
def TuckCall.event (call : TuckCall) : Option CatastrophicEvent :=
  match call.frame.pfp with
  | none => none
  | some pfp =>
      if pfp.isCatastrophicOverride then
        some (CatastrophicEvent.new (TuckGate.frameRequest pfp call.frame) call.clock)
      else none

namespace TuckGate

/-- The log of the gate represents the events of the overrides, and the bus is closed. -/
structure Audited (sha256 : List UInt8 → Digest) (gate : TuckGate)
    (events : List CatastrophicEvent) : Prop where
  represents : gate.catastrophic.auditLog.Represents sha256 events events.length
  closed : gate.catastrophic.eventBus = CatastrophicEventBus.new.dropReceiver

variable {sha256 : List UInt8 → Digest} {gate : TuckGate} {events : List CatastrophicEvent}

theorem audited_new (tenantId : UInt64) : (new tenantId).Audited sha256 [] where
  represents := CatastrophicAuditLog.represents_new
  closed := rfl

/-- A manager whose bus is closed only records. -/
theorem handleFrame_of_closed {manager : CatastrophicManager} {request : FrameRequest}
    (hbus : manager.eventBus = CatastrophicEventBus.new.dropReceiver)
    (hoverride : CatastrophicManager.isCatastrophicOverride request.pfpBytes = true)
    (clock : SystemTime) :
    manager.handleFrame sha256 request clock =
      (true,
        { manager with
          auditLog :=
            (manager.auditLog.append sha256 (CatastrophicEvent.new request clock)).2 }) := by
  rw [CatastrophicManager.handleFrame, hoverride]
  dsimp only
  rw [hbus]
  rfl

/-- **What one decision leaves in the log.** -/
theorem Audited.decide (h : gate.Audited sha256 events) (call : TuckCall) :
    (gate.decide sha256 call).2.Audited sha256 (events ++ call.event.toList) ∧
      ((gate.decide sha256 call).1 = .catastrophicOverride ↔ call.event.isSome = true) := by
  cases hpfp : call.frame.pfp with
  | none =>
      rw [decide_of_noPfp hpfp, TuckCall.event, hpfp]
      refine ⟨?_, by simp⟩
      rw [Option.toList_none, List.append_nil]
      exact h
  | some pfp =>
      cases hoverride : pfp.isCatastrophicOverride with
      | true =>
          have hwire : CatastrophicManager.isCatastrophicOverride
              (frameRequest pfp call.frame).pfpBytes = true := by
            rw [frameRequest, CatastrophicManager.isCatastrophicOverride_encode, hoverride]
          rw [decide_of_override hpfp hoverride, handleFrame_of_closed h.closed hwire,
            TuckCall.event, hpfp]
          dsimp only
          rw [if_pos hoverride]
          refine ⟨⟨?_, h.closed⟩, by simp⟩
          rw [Option.toList_some, List.length_append]
          exact h.represents.append _
      | false =>
          rw [decide_of_processed hpfp hoverride, TuckCall.event, hpfp]
          dsimp only
          rw [hoverride, if_neg Bool.false_ne_true, Option.toList_none, List.append_nil]
          refine ⟨⟨h.represents, h.closed⟩, ?_⟩
          split <;> simp

/-- What a run leaves in the log, and how many of its decisions are overrides. -/
theorem audited_final (sha256 : List UInt8 → Digest) (tenantId : UInt64) (calls : List TuckCall) :
    (Transcript.final (TuckGate.decide sha256) (new tenantId) calls).Audited sha256
        (calls.filterMap TuckCall.event) ∧
      ((Transcript.transcript (TuckGate.decide sha256) (new tenantId) calls).map
        Exchange.answer).count .catastrophicOverride =
          (calls.filterMap TuckCall.event).length := by
  induction calls using List.reverseRecOn with
  | nil => exact ⟨audited_new tenantId, rfl⟩
  | append_singleton calls call ih =>
      obtain ⟨haudited, hcount⟩ := ih
      obtain ⟨hstep, hanswer⟩ := haudited.decide call
      have hevents : (calls ++ [call]).filterMap TuckCall.event =
          calls.filterMap TuckCall.event ++ call.event.toList := by
        rw [List.filterMap_append]
        cases hevent : call.event <;> simp [hevent]
      rw [Transcript.final_concat, Transcript.transcript_concat, hevents, List.map_append,
        List.count_append, hcount, List.length_append, List.map_singleton, List.count_singleton]
      refine ⟨hstep, congrArg _ ?_⟩
      cases hevent : call.event with
      | none => simpa [hevent] using hanswer
      | some event => simpa [hevent] using hanswer

/-- **What a run leaves in the log.**  Whatever frames a new gate decides about, the log holds the
last `auditLogMaxEntries` of the events that the overrides trigger, in order, all of them being
counted; the chain check accepts it as long as none has been forgotten; as many decisions are hard
overrides as there are events; and nothing is ever sent on the event bus. -/
theorem run_audited (sha256 : List UInt8 → Digest) (hzero : NeverZero sha256) (tenantId : UInt64)
    (calls : List TuckCall) :
    let gate := Transcript.final (TuckGate.decide sha256) (new tenantId) calls
    let events := calls.filterMap TuckCall.event
    gate.catastrophic.auditEntries.map AuditEntry.event = events.rtake auditLogMaxEntries ∧
      gate.catastrophic.totalTriggers = UInt64.ofNat events.length ∧
      (gate.catastrophic.auditLog.verifyChain sha256 = true ↔
        events.length ≤ auditLogMaxEntries) ∧
      ((Transcript.transcript (TuckGate.decide sha256) (new tenantId) calls).map
        Exchange.answer).count .catastrophicOverride = events.length ∧
      gate.catastrophic.eventBus.queue = [] := by
  intro gate events
  obtain ⟨haudited, hcount⟩ := audited_final sha256 tenantId calls
  refine ⟨?_, haudited.represents.totalTriggers, haudited.represents.verifyChain_iff hzero, hcount,
    congrArg CatastrophicEventBus.queue haudited.closed⟩
  have hentries : gate.catastrophic.auditEntries =
      (AuditChain.chain sha256 events).rtake auditLogMaxEntries := haudited.represents.entries
  rw [hentries, List.rtake, List.rtake, List.map_drop, AuditChain.map_event_chain,
    AuditChain.length_chain]

/-- A frame that triggers the hard override. -/
def overrideCall : TuckCall :=
  { frame := BindFrame.overrideFrame, sourceId := 100, clock := some (1700000000, 250), now := 0 }

/-- The frame is captured and sent again.  It triggers the override both times. -/
theorem run_audited_repeatedOverride :
    let gate := Transcript.final (TuckGate.decide sampleSha256) (new 1) [overrideCall, overrideCall]
    gate.catastrophic.totalTriggers = 2 ∧
      (gate.catastrophic.auditLog.verifyChain sampleSha256 = true ↔ 2 ≤ auditLogMaxEntries) := by
  obtain ⟨-, htriggers, hverify, -⟩ :=
    run_audited sampleSha256 neverZero_sampleSha256 1 [overrideCall, overrideCall]
  exact ⟨htriggers, hverify⟩

end TuckGate

end Bind19
