/-
**A sender, a network and a processor.**

A sender numbers its data frames with the counter of its SAP and rotates its key in between.  The
network is not to be trusted: it may lose a frame, hold it back, deliver it out of order and deliver
it again, it may invent byte strings of its own, and there are other sources.  The receiver parses
what it gets and hands it to the frame processor, which drops sources now and then.

This module puts the three together.  As long as the source is not dropped, no frame is accepted
twice, whatever the network does; and of the frames sent under one key those that are accepted are
accepted in the order in which they were sent.  The receiver is not told of a new key, so that
across keys there is no such order, and a frame of the new key is held back if its number was used
up under the old one.

Main definitions:

* `Bind19.SentFrame` — a data frame, built by the constructor;
* `Bind19.Session`, `Bind19.Session.step` — the sender, the network and the processor;
* `Bind19.Session.Keeps`, `Bind19.Session.BelowWrap`, `Bind19.Session.Unforged` — what a step may be
  asked not to do.

Main results:

* `Bind19.Session.Sound.step`, `Bind19.Session.Ordered.step` — what one step preserves;
* `Bind19.Session.run_atMostOnce` — **no frame is accepted twice, and none before an earlier one of
  its key**;
* `Bind19.Session.run_deliver_iff` — **no frame is held back but for a later one**.
-/

import Bind19.Ascending
import Bind19.DeliveryHistory
import Bind19.FrameCodec
import Bind19.RotationCounter
import Bind19.Runs

set_option relaxedAutoImplicit false
set_option autoImplicit false

namespace Bind19

/-! ### Data frames -/

/-- What a sender puts into a data frame beside the SAP. -/
structure DataRequest where
  channelId : UInt8
  sequenceId : UInt8
  pfp : PfpHeader
  payload : List UInt8

/-- A data frame that was sent, and under which key: after how many rotations. -/
structure SentFrame where
  epoch : ℕ
  request : DataRequest
  sap : SapHeader
  frame : BindFrame
  built : BindFrame.new .data request.channelId request.sequenceId (some request.pfp) (some sap)
    request.payload = .ok frame

namespace SentFrame

/-- The number of the frame, if it is checked. -/
def checkedSeq (f : SentFrame) : Option UInt16 :=
  if f.request.pfp.replayEnable then some f.sap.seqCounter else none

/-- The frame as the network delivers it. -/
def delivery (f : SentFrame) (sourceId : UInt64) (now : Instant) : Delivery :=
  { buf := f.frame.encode, sourceId, now }

/-- A frame is parsed from its bytes. -/
theorem decode_encode (f : SentFrame) :
    BindFrame.decode f.frame.encode = .ok f.frame.normalize := by
  have hannounced := (BindFrame.wellFormed_of_new f.built).announced
  obtain ⟨-, -, hframe⟩ := BindFrame.new_eq_ok_iff.1 f.built
  have htype : f.frame.header.frameType = FrameType.fromByte 0x01 := by
    rw [hframe]
    rfl
  have hdecode := BindFrame.decode_encode_append hannounced ⟨_, htype⟩ []
  rwa [List.append_nil] at hdecode

/-- What is checked of it is its number. -/
theorem checkedSeq_delivery (f : SentFrame) (sourceId : UInt64) (now : Instant) :
    (f.delivery sourceId now).checkedSeq = f.checkedSeq := by
  obtain ⟨-, -, hframe⟩ := BindFrame.new_eq_ok_iff.1 f.built
  rw [Delivery.checkedSeq, delivery, f.decode_encode, hframe]
  rfl

end SentFrame

/-! ### The session -/

/-- A sender, the frames that it has sent, the processor of the receiver, and as history the
positions of the frames that the processor has accepted. -/
structure Session where
  sender : CountingSender
  sent : List SentFrame
  processor : FrameProcessor
  accepted : List ℕ

/-- What happens next. -/
inductive SessionAction
  /-- The sender sends a data frame. -/
  | send (request : DataRequest)
  /-- The sender takes another step. -/
  | rotate (action : SenderAction)
  /-- The network delivers a frame that was sent. -/
  | deliver (i : ℕ) (now : Instant)
  /-- The network delivers any other byte string. -/
  | inject (delivery : Delivery)
  | cleanup (clock : ReplayKey → Instant)
  | remove (sourceId : UInt64)

namespace Session

/-- A session before the first frame. -/
def init (sap : SapHeader) (tenantId : UInt64) : Session :=
  { sender := CountingSender.init sap, sent := [], processor := FrameProcessor.new tenantId
    accepted := [] }

/-- The processor gets a frame that was sent. -/
def receive (s : Session) (sourceId : UInt64) (now : Instant) (i : ℕ) (f : SentFrame) : Session :=
  let answered := s.processor.deliver (f.delivery sourceId now)
  { s with
    processor := answered.2
    accepted :=
      if answered.1.toOption = some .allowed then s.accepted ++ [i] else s.accepted }

/-- One step. -/
def step (sourceId : UInt64) (s : Session) : SessionAction → Option Session
  | .send request =>
      match s.sender.step .send with
      | none => none
      | some sender =>
          match built : BindFrame.new .data request.channelId request.sequenceId (some request.pfp)
              (some sender.sap) request.payload with
          | .error _ => none
          | .ok frame =>
              let epoch := s.sender.finished.length
              some { s with
                sender
                sent := s.sent ++ [{ epoch, request, sap := sender.sap, frame, built }] }
  | .rotate action =>
      if action = .send then none
      else (s.sender.step action).map fun sender => { s with sender }
  | .deliver i now => s.sent[i]?.map (s.receive sourceId now i)
  | .inject delivery => some { s with processor := (s.processor.deliver delivery).2 }
  | .cleanup clock => some { s with processor := (s.processor.cleanupExpired clock).2 }
  | .remove sourceId' => some { s with processor := (s.processor.removeSource sourceId').2 }

/-- The number of the frame at a position, if it is checked. -/
def checkedSeqAt (s : Session) (i : ℕ) : Option UInt16 := s.sent[i]?.bind SentFrame.checkedSeq

/-- The key under which the frame at a position was sent. -/
def epochAt (s : Session) (i : ℕ) : Option ℕ := s.sent[i]?.map SentFrame.epoch

/-- Whether the frame at a position is checked. -/
def isChecked (s : Session) (i : ℕ) : Bool := (s.checkedSeqAt i).isSome

/-- The checked numbers that were accepted. -/
def acceptedSeqs (s : Session) : List UInt16 := s.accepted.filterMap s.checkedSeqAt

/-- The step does not drop the source: a clean-up comes in time, and a removal is of another source
or finds nothing. -/
def Keeps (sourceId : UInt64) (s : Session) : SessionAction → Prop
  | .cleanup clock =>
      (s.processor.replayCache.entries.get? (s.processor.key sourceId)).all (fun entry =>
        !entry.isExpired s.processor.replayCache.ttl (clock (s.processor.key sourceId))) = true
  | .remove sourceId' => sourceId' = sourceId → s.processor.lastSeq sourceId = none
  | _ => True

/-- The step does not send a frame at the largest value of the counter. -/
def BelowWrap (s : Session) : SessionAction → Prop
  | .send _ => s.sender.sap.seqCounter ≠ 65535
  | _ => True

/-- The step does not deliver a byte string as from the source that it has not sent. -/
def Unforged (sourceId : UInt64) (_s : Session) : SessionAction → Prop
  | .inject delivery => delivery.sourceId = sourceId → delivery.checkedSeq = none
  | _ => True

instance (sourceId : UInt64) (s : Session) (a : SessionAction) : Decidable (s.Keeps sourceId a) :=
  match a with
  | .cleanup _ => inferInstanceAs (Decidable (_ = true))
  | .remove _ => inferInstanceAs (Decidable (_ = _ → _ = _))
  | .send _ | .rotate _ | .deliver _ _ | .inject _ => isTrue trivial

instance (s : Session) (a : SessionAction) : Decidable (s.BelowWrap a) :=
  match a with
  | .send _ => inferInstanceAs (Decidable (_ ≠ _))
  | .rotate _ | .deliver _ _ | .inject _ | .cleanup _ | .remove _ => isTrue trivial

instance (sourceId : UInt64) (s : Session) (a : SessionAction) :
    Decidable (s.Unforged sourceId a) :=
  match a with
  | .inject _ => inferInstanceAs (Decidable (_ → _))
  | .send _ | .rotate _ | .deliver _ _ | .cleanup _ | .remove _ => isTrue trivial

variable {sourceId : UInt64} {s s' : Session} {a : SessionAction}

/-- What a step does. -/
theorem step_cases (h : step sourceId s a = some s') :
    (∃ request f sender, a = .send request ∧ s.sender.step .send = some sender ∧
        f.epoch = s.sender.finished.length ∧ f.sap = sender.sap ∧
        s' = { s with sender, sent := s.sent ++ [f] }) ∨
      (∃ action sender, a = .rotate action ∧ action ≠ .send ∧
        s.sender.step action = some sender ∧ s' = { s with sender }) ∨
      (∃ i now f, a = .deliver i now ∧ s.sent[i]? = some f ∧ s' = s.receive sourceId now i f) ∨
      ∃ processor, s' = { s with processor } ∧
        ((∃ d, a = .inject d ∧ processor = (s.processor.deliver d).2) ∨
          (∃ clock, a = .cleanup clock ∧ processor = (s.processor.cleanupExpired clock).2) ∨
          ∃ sourceId', a = .remove sourceId' ∧
            processor = (s.processor.removeSource sourceId').2) := by
  cases a with
  | send request =>
      rw [step] at h
      cases hsender : s.sender.step .send with
      | none =>
          rw [hsender] at h
          cases h
      | some sender =>
          rw [hsender] at h
          dsimp only at h
          split at h
          · cases h
          · rename_i frame hbuilt
            obtain rfl := Option.some.inj h
            exact Or.inl ⟨request, _, sender, rfl, rfl, rfl, rfl, rfl⟩
  | rotate action =>
      rw [step] at h
      split at h
      · cases h
      · rename_i hne
        obtain ⟨sender, hsender, rfl⟩ := Option.map_eq_some_iff.1 h
        exact Or.inr (Or.inl ⟨action, sender, rfl, hne, hsender, rfl⟩)
  | deliver i now =>
      obtain ⟨f, hf, rfl⟩ := Option.map_eq_some_iff.1 h
      exact Or.inr (Or.inr (Or.inl ⟨i, now, f, rfl, hf, rfl⟩))
  | inject d =>
      obtain rfl := Option.some.inj h
      exact Or.inr (Or.inr (Or.inr ⟨_, rfl, Or.inl ⟨d, rfl, rfl⟩⟩))
  | cleanup clock =>
      obtain rfl := Option.some.inj h
      exact Or.inr (Or.inr (Or.inr ⟨_, rfl, Or.inr (Or.inl ⟨clock, rfl, rfl⟩)⟩))
  | remove sourceId' =>
      obtain rfl := Option.some.inj h
      exact Or.inr (Or.inr (Or.inr ⟨_, rfl, Or.inr (Or.inr ⟨sourceId', rfl, rfl⟩)⟩))

theorem receive_sender (now : Instant) (i : ℕ) (f : SentFrame) :
    (s.receive sourceId now i f).sender = s.sender := by rw [receive]

theorem receive_sent (now : Instant) (i : ℕ) (f : SentFrame) :
    (s.receive sourceId now i f).sent = s.sent := by rw [receive]

/-! ### The order of the frames under one key -/

/-- The frames sent under one key are numbered in order, and the counter is past those sent under
the current key. -/
structure Ordered (s : Session) : Prop where
  epoch_le : ∀ f ∈ s.sent, f.epoch ≤ s.sender.finished.length
  counter : ∀ f ∈ s.sent, f.epoch = s.sender.finished.length →
    f.sap.seqCounter ≤ s.sender.sap.seqCounter
  ascending : s.sent.Pairwise fun f g => f.epoch = g.epoch → f.sap.seqCounter < g.sap.seqCounter

theorem ordered_init (sap : SapHeader) (tenantId : UInt64) : (init sap tenantId).Ordered where
  epoch_le _ hf := nomatch hf
  counter _ hf := nomatch hf
  ascending := List.Pairwise.nil

/-- What leaves the sender alone preserves the order. -/
theorem Ordered.of_eq (h : s.Ordered) (hsender : s'.sender = s.sender) (hsent : s'.sent = s.sent) :
    s'.Ordered := by
  refine ⟨?_, ?_, ?_⟩
  · rw [hsender, hsent]
    exact h.epoch_le
  · rw [hsender, hsent]
    exact h.counter
  · rw [hsent]
    exact h.ascending

/-- What a step of the sender preserves that sends nothing. -/
theorem Ordered.rotate (h : s.Ordered) {action : SenderAction} {sender : CountingSender}
    (hne : action ≠ .send) (hstep : s.sender.step action = some sender) :
    Ordered { s with sender } := by
  rcases CountingSender.step_cases hstep with
    ⟨hsend, -⟩ | ⟨-, -, -, hfinished⟩ | ⟨-, hsap, -, hfinished⟩
  · exact absurd hsend hne
  · -- a rotation is complete, and no frame has been sent under the new key
    have hlength : sender.finished.length = s.sender.finished.length + 1 := by
      rw [hfinished, List.length_append, List.length_singleton]
    refine ⟨fun f hf => ?_, fun f hf hepoch => ?_, h.ascending⟩
    · have hle := h.epoch_le f hf
      dsimp only
      omega
    · have hle := h.epoch_le f hf
      dsimp only at hepoch
      omega
  · refine ⟨?_, ?_, h.ascending⟩
    · dsimp only
      rw [hfinished]
      exact h.epoch_le
    · dsimp only
      rw [hfinished, hsap]
      exact h.counter

/-- What sending a frame preserves. -/
theorem Ordered.send (h : s.Ordered) {f : SentFrame} {sender : CountingSender}
    (hstep : s.sender.step .send = some sender) (hepoch : f.epoch = s.sender.finished.length)
    (hsap : f.sap = sender.sap) (hwrap : s.sender.sap.seqCounter ≠ 65535) :
    Ordered { s with sender, sent := s.sent ++ [f] } := by
  rcases CountingSender.step_cases hstep with
    ⟨-, hnext, -, hfinished⟩ | ⟨hne, -⟩ | ⟨hne, -⟩
  · have hcounter : f.sap.seqCounter = s.sender.sap.incrementSeq.1 := by
      rw [hsap, hnext]
      rfl
    have hlt : s.sender.sap.seqCounter < f.sap.seqCounter := by
      rw [hcounter]
      exact SapHeader.incrementSeq_lt hwrap
    refine ⟨fun g hg => ?_, fun g hg hcurrent => ?_, ?_⟩
    · dsimp only
      rw [hfinished]
      rcases List.mem_append.1 hg with hg | hg
      · exact h.epoch_le g hg
      · obtain rfl := List.mem_singleton.1 hg
        exact Nat.le_of_eq hepoch
    · dsimp only at hcurrent ⊢
      rw [hfinished] at hcurrent
      rw [← hsap]
      rcases List.mem_append.1 hg with hg | hg
      · exact UInt16.le_trans (h.counter g hg hcurrent) (UInt16.le_of_lt hlt)
      · obtain rfl := List.mem_singleton.1 hg
        exact UInt16.le_refl _
    · refine List.pairwise_append.2 ⟨h.ascending, List.pairwise_singleton _ _, ?_⟩
      intro g hg f' hf' hsame
      obtain rfl := List.mem_singleton.1 hf'
      exact UInt16.lt_of_le_of_lt (h.counter g hg (hsame.trans hepoch)) hlt
  · exact absurd rfl hne
  · exact absurd rfl hne

/-- **What a step preserves of the order.** -/
theorem Ordered.step (h : s.Ordered) (hwrap : s.BelowWrap a)
    (hstep : Session.step sourceId s a = some s') : s'.Ordered := by
  rcases step_cases hstep with
    ⟨request, f, sender, rfl, hsender, hepoch, hsap, rfl⟩ |
    ⟨action, sender, -, hne, hsender, rfl⟩ | ⟨i, now, f, -, -, rfl⟩ | ⟨processor, rfl, -⟩
  · exact h.send hsender hepoch hsap hwrap
  · exact h.rotate hne hsender
  · exact h.of_eq (receive_sender now i f) (receive_sent now i f)
  · exact h.of_eq rfl rfl

/-- Of two frames sent under one key, the one with the lower number was sent first. -/
theorem Ordered.lt_iff (h : s.Ordered) {i j : ℕ} {f g : SentFrame} (hi : s.sent[i]? = some f)
    (hj : s.sent[j]? = some g) (hepoch : f.epoch = g.epoch) :
    f.sap.seqCounter < g.sap.seqCounter ↔ i < j := by
  obtain ⟨hi', rfl⟩ := List.getElem?_eq_some_iff.1 hi
  obtain ⟨hj', rfl⟩ := List.getElem?_eq_some_iff.1 hj
  have hpairwise := List.pairwise_iff_getElem.1 h.ascending
  refine ⟨fun hlt => ?_, fun hlt => hpairwise i j hi' hj' hlt hepoch⟩
  rcases Nat.lt_trichotomy i j with hij | rfl | hji
  · exact hij
  · exact absurd hlt (UInt16.lt_irrefl _)
  · exact absurd hlt (UInt16.lt_asymm (hpairwise j i hj' hi' hji hepoch.symm))

/-! ### What the processor has accepted -/

end Session

namespace FrameProcessor

variable {p p' : FrameProcessor} {d : Delivery} {sourceId : UInt64} {seq : UInt16}

/-- The number on record for the source does not fall. -/
def RecordGrows (sourceId : UInt64) (p p' : FrameProcessor) : Prop :=
  ∀ last, p.lastSeq sourceId = some last →
    ∃ last', p'.lastSeq sourceId = some last' ∧ last ≤ last'

theorem recordGrows_of_eq (h : p'.lastSeq sourceId = p.lastSeq sourceId) :
    RecordGrows sourceId p p' :=
  fun last hlast => ⟨last, h.trans hlast, UInt16.le_refl last⟩

/-- A checked delivery is accepted if its number is fresh, and put on record then. -/
theorem deliver_of_fresh (hseq : d.checkedSeq = some seq)
    (hfresh : p.replayCache.Fresh (p.key d.sourceId) seq) :
    (p.deliver d).1.toOption = some .allowed ∧ (p.deliver d).2.lastSeq d.sourceId = some seq := by
  refine ⟨?_, lastSeq_deliver_of_fresh hseq hfresh⟩
  rw [deliver_of_some hseq, ReplayCache.checkAndUpdate_fst,
    ReplayCache.checkOnly_eq_allowed_iff.2 hfresh]
  rfl

/-- Otherwise it is not accepted, and nothing changes. -/
theorem deliver_of_not_fresh (hseq : d.checkedSeq = some seq)
    (hfresh : ¬ p.replayCache.Fresh (p.key d.sourceId) seq) :
    (p.deliver d).1.toOption ≠ some .allowed ∧
      (p.deliver d).2.lastSeq d.sourceId = p.lastSeq d.sourceId := by
  refine ⟨?_, lastSeq_deliver_of_not_fresh hseq hfresh⟩
  rw [deliver_of_some hseq, ReplayCache.checkAndUpdate_fst]
  have hanswer := mt ReplayCache.checkOnly_eq_allowed_iff.1 hfresh
  cases hcheck : p.replayCache.checkOnly (p.key d.sourceId) seq with
  | allowed => exact absurd hcheck hanswer
  | rejected | cacheFull => simp [Except.toOption, FrameProcessResult.ofCheck]

/-- A fresh number exceeds the one on record. -/
theorem lt_of_fresh (hfresh : p.replayCache.Fresh (p.key sourceId) seq) {last : UInt16}
    (hlast : p.lastSeq sourceId = some last) : last < seq := by
  unfold ReplayCache.Fresh at hfresh
  rw [FrameProcessor.lastSeq] at hlast
  rwa [hlast] at hfresh

/-- No delivery takes the number on record back. -/
theorem recordGrows_deliver (p : FrameProcessor) (d : Delivery) (sourceId : UInt64) :
    RecordGrows sourceId p (p.deliver d).2 := by
  cases hseq : d.checkedSeq with
  | none =>
      rw [deliver_of_none hseq]
      exact recordGrows_of_eq rfl
  | some seq =>
      by_cases hsource : d.sourceId = sourceId
      · subst hsource
        by_cases hfresh : p.replayCache.Fresh (p.key d.sourceId) seq
        · intro last hlast
          exact ⟨seq, (deliver_of_fresh hseq hfresh).2, UInt16.le_of_lt (lt_of_fresh hfresh hlast)⟩
        · exact recordGrows_of_eq (deliver_of_not_fresh hseq hfresh).2
      · exact recordGrows_of_eq (lastSeq_deliver_of_source_ne hsource)

/-- A clean-up that comes in time leaves the number on record. -/
theorem lastSeq_cleanupExpired_of_kept {clock : ReplayKey → Instant}
    (hkept : (p.replayCache.entries.get? (p.key sourceId)).all (fun entry =>
      !entry.isExpired p.replayCache.ttl (clock (p.key sourceId))) = true) :
    (p.cleanupExpired clock).2.lastSeq sourceId = p.lastSeq sourceId := by
  change (p.replayCache.cleanupExpired clock).2.lastSeq (p.key sourceId) = _
  rw [lastSeq, ReplayCache.lastSeq, ReplayCache.lastSeq, ReplayCache.cleanupExpired,
    FiniteMap.get?_retain]
  cases hentry : p.replayCache.entries.get? (p.key sourceId) with
  | none => rfl
  | some entry =>
      rw [hentry, Option.all_some, Bool.not_eq_true'] at hkept
      simp [hkept]

/-- The removal of another source leaves the number on record, and so does one that finds
nothing. -/
theorem lastSeq_removeSource_of_kept {sourceId' : UInt64}
    (hkept : sourceId' = sourceId → p.lastSeq sourceId = none) :
    (p.removeSource sourceId').2.lastSeq sourceId = p.lastSeq sourceId := by
  change (p.replayCache.remove (p.key sourceId')).2.lastSeq (p.key sourceId) = _
  rw [ReplayCache.lastSeq_remove]
  split
  · rename_i hkey
    exact (hkept (congrArg ReplayKey.sourceId hkey).symm).symm
  · rw [lastSeq]

end FrameProcessor

namespace Session

variable {sourceId : UInt64} {s s' : Session} {a : SessionAction} {i : ℕ} {f : SentFrame}

theorem checkedSeqAt_congr (h : s'.sent = s.sent) : s'.checkedSeqAt = s.checkedSeqAt := by
  funext i
  rw [checkedSeqAt, checkedSeqAt, h]

theorem checkedSeqAt_eq (hf : s.sent[i]? = some f) : s.checkedSeqAt i = f.checkedSeq := by
  rw [checkedSeqAt, hf, Option.bind_some]

/-- What the processor has accepted afterwards. -/
theorem acceptedSeqs_receive (hf : s.sent[i]? = some f) (sourceId : UInt64) (now : Instant) :
    (s.receive sourceId now i f).acceptedSeqs =
      if (s.processor.deliver (f.delivery sourceId now)).1.toOption = some .allowed then
        s.acceptedSeqs ++ f.checkedSeq.toList
      else s.acceptedSeqs := by
  rw [acceptedSeqs, checkedSeqAt_congr (receive_sent now i f), receive]
  dsimp only
  split
  · rw [List.filterMap_append, List.filterMap_cons, List.filterMap_nil, checkedSeqAt_eq hf]
    cases f.checkedSeq <;> rfl
  · rfl

/-- The positions are those of frames that were sent; the accepted numbers ascend, and the one on
record for the source is not below any of them. -/
structure Sound (sourceId : UInt64) (s : Session) : Prop where
  positions : ∀ i ∈ s.accepted, i < s.sent.length
  ascending : s.acceptedSeqs.Pairwise (· < ·)
  onRecord : ∀ n ∈ s.acceptedSeqs, ∃ last, s.processor.lastSeq sourceId = some last ∧ n ≤ last

theorem sound_init (sourceId : UInt64) (sap : SapHeader) (tenantId : UInt64) :
    (init sap tenantId).Sound sourceId where
  positions _ hi := nomatch hi
  ascending := List.Pairwise.nil
  onRecord _ hn := nomatch hn

theorem Sound.onRecord_of_grows (h : s.Sound sourceId) {processor : FrameProcessor}
    (hgrows : FrameProcessor.RecordGrows sourceId s.processor processor) :
    ∀ n ∈ s.acceptedSeqs, ∃ last, processor.lastSeq sourceId = some last ∧ n ≤ last := by
  intro n hn
  obtain ⟨last, hlast, hle⟩ := h.onRecord n hn
  obtain ⟨last', hlast', hle'⟩ := hgrows last hlast
  exact ⟨last', hlast', UInt16.le_trans hle hle'⟩

/-- What a step preserves that accepts nothing and does not take back the number on record. -/
theorem Sound.quiet (h : s.Sound sourceId) {processor : FrameProcessor}
    (hgrows : FrameProcessor.RecordGrows sourceId s.processor processor) :
    Sound sourceId { s with processor } :=
  ⟨h.positions, h.ascending, h.onRecord_of_grows hgrows⟩

theorem Sound.positions_receive (h : s.Sound sourceId) (hf : s.sent[i]? = some f) (now : Instant) :
    ∀ j ∈ (s.receive sourceId now i f).accepted, j < (s.receive sourceId now i f).sent.length := by
  intro j hj
  rw [receive_sent]
  rw [Session.receive] at hj
  dsimp only at hj
  split at hj
  · rcases List.mem_append.1 hj with hj | hj
    · exact h.positions j hj
    · rw [List.mem_singleton.1 hj]
      exact (List.getElem?_eq_some_iff.1 hf).1
  · exact h.positions j hj

/-- What the delivery of a frame that was sent preserves. -/
theorem Sound.receive (h : s.Sound sourceId) (hf : s.sent[i]? = some f) (now : Instant) :
    (s.receive sourceId now i f).Sound sourceId := by
  have hprocessor : (s.receive sourceId now i f).processor =
      (s.processor.deliver (f.delivery sourceId now)).2 := by rw [Session.receive]
  have hseqs := acceptedSeqs_receive hf sourceId now
  have honRecord := h.onRecord_of_grows
    (FrameProcessor.recordGrows_deliver s.processor (f.delivery sourceId now) sourceId)
  cases hseq : f.checkedSeq with
  | none =>
      rw [hseq, Option.toList_none, List.append_nil, ite_self] at hseqs
      refine ⟨h.positions_receive hf now, ?_, ?_⟩
      · rw [hseqs]
        exact h.ascending
      · rw [hseqs, hprocessor]
        exact honRecord
  | some seq =>
      have hchecked : (f.delivery sourceId now).checkedSeq = some seq := by
        rw [SentFrame.checkedSeq_delivery, hseq]
      by_cases hfresh : s.processor.replayCache.Fresh (s.processor.key sourceId) seq
      · obtain ⟨hallowed, hlast⟩ := FrameProcessor.deliver_of_fresh hchecked hfresh
        rw [if_pos hallowed, hseq, Option.toList_some] at hseqs
        have hbelow : ∀ n ∈ s.acceptedSeqs, n < seq := by
          intro n hn
          obtain ⟨last, hrecord, hle⟩ := h.onRecord n hn
          exact UInt16.lt_of_le_of_lt hle (FrameProcessor.lt_of_fresh hfresh hrecord)
        refine ⟨h.positions_receive hf now, ?_, fun n hn => ?_⟩
        · rw [hseqs]
          refine List.pairwise_append.2 ⟨h.ascending, List.pairwise_singleton _ _, ?_⟩
          intro n hn n' hn'
          obtain rfl := List.mem_singleton.1 hn'
          exact hbelow n hn
        · rw [hseqs] at hn
          refine ⟨seq, hprocessor ▸ hlast, ?_⟩
          rcases List.mem_append.1 hn with hn | hn
          · exact UInt16.le_of_lt (hbelow n hn)
          · exact UInt16.le_of_eq (List.mem_singleton.1 hn)
      · rw [if_neg (FrameProcessor.deliver_of_not_fresh hchecked hfresh).1] at hseqs
        refine ⟨h.positions_receive hf now, ?_, ?_⟩
        · rw [hseqs]
          exact h.ascending
        · rw [hseqs, hprocessor]
          exact honRecord

/-- The frames sent later do not change what was accepted. -/
theorem Sound.acceptedSeqs_send (h : s.Sound sourceId) (sender : CountingSender) (f : SentFrame) :
    acceptedSeqs { s with sender, sent := s.sent ++ [f] } = s.acceptedSeqs := by
  refine List.filterMap_congr fun i hi => ?_
  rw [checkedSeqAt, checkedSeqAt]
  dsimp only
  rw [List.getElem?_append_left (h.positions i hi)]

theorem Sound.send (h : s.Sound sourceId) (sender : CountingSender) (f : SentFrame) :
    Sound sourceId { s with sender, sent := s.sent ++ [f] } := by
  have hseqs := h.acceptedSeqs_send sender f
  refine ⟨fun i hi => ?_, ?_, ?_⟩
  · rw [List.length_append]
    exact Nat.lt_add_right _ (h.positions i hi)
  · rw [hseqs]
    exact h.ascending
  · rw [hseqs]
    exact h.onRecord

/-- **What a step preserves that does not drop the source.** -/
theorem Sound.step (h : s.Sound sourceId) (hkeeps : s.Keeps sourceId a)
    (hstep : Session.step sourceId s a = some s') : s'.Sound sourceId := by
  rcases step_cases hstep with
    ⟨request, f, sender, -, -, -, -, rfl⟩ | ⟨action, sender, -, -, -, rfl⟩ |
    ⟨i, now, f, -, hf, rfl⟩ | ⟨processor, rfl, hprocessor⟩
  · exact h.send sender f
  · exact ⟨h.positions, h.ascending, h.onRecord⟩
  · exact h.receive hf now
  · refine h.quiet ?_
    rcases hprocessor with ⟨d, -, rfl⟩ | ⟨clock, rfl, rfl⟩ | ⟨sourceId', rfl, rfl⟩
    · exact FrameProcessor.recordGrows_deliver s.processor d sourceId
    · exact FrameProcessor.recordGrows_of_eq (FrameProcessor.lastSeq_cleanupExpired_of_kept hkeeps)
    · exact FrameProcessor.recordGrows_of_eq (FrameProcessor.lastSeq_removeSource_of_kept hkeeps)

/-! ### Runs -/

theorem checkedSeqAt_eq_some_iff {n : UInt16} : s.checkedSeqAt i = some n ↔
    ∃ f, s.sent[i]? = some f ∧ f.checkedSeq = some n := by
  rw [checkedSeqAt, Option.bind_eq_some_iff]

theorem seqCounter_of_checkedSeq {n : UInt16} (h : f.checkedSeq = some n) :
    f.sap.seqCounter = n := by
  rw [SentFrame.checkedSeq] at h
  split at h
  · exact Option.some.inj h
  · cases h

/-- Of two checked frames, the one that was accepted first has the lower number. -/
theorem Sound.pairwise_checked (h : s.Sound sourceId) :
    (s.accepted.filter s.isChecked).Pairwise fun i j =>
      ∃ f g, s.sent[i]? = some f ∧ s.sent[j]? = some g ∧ f.sap.seqCounter < g.sap.seqCounter := by
  refine List.pairwise_filter.2 ((List.pairwise_filterMap.1 h.ascending).imp ?_)
  intro i j hlt hi hj
  obtain ⟨n, hn⟩ := Option.isSome_iff_exists.1 hi
  obtain ⟨m, hm⟩ := Option.isSome_iff_exists.1 hj
  obtain ⟨f, hf, hfn⟩ := checkedSeqAt_eq_some_iff.1 hn
  obtain ⟨g, hg, hgm⟩ := checkedSeqAt_eq_some_iff.1 hm
  refine ⟨f, g, hf, hg, ?_⟩
  rw [seqCounter_of_checkedSeq hfn, seqCounter_of_checkedSeq hgm]
  exact hlt n hn m hm

/-- No checked frame is accepted twice. -/
theorem Sound.count_le_one (h : s.Sound sourceId) (hi : s.isChecked i = true) :
    s.accepted.count i ≤ 1 := by
  have hnodup : (s.accepted.filter s.isChecked).Nodup := by
    refine h.pairwise_checked.imp ?_
    rintro i j ⟨f, g, hf, hg, hlt⟩ rfl
    obtain rfl := Option.some.inj (hf.symm.trans hg)
    exact UInt16.lt_irrefl _ hlt
  rw [← List.count_filter hi]
  exact List.nodup_iff_count_le_one.1 hnodup i

/-- Of the checked frames sent under one key, those that are accepted are accepted in order. -/
theorem Sound.pairwise_epoch (h : s.Sound sourceId) (hordered : s.Ordered) :
    (s.accepted.filter s.isChecked).Pairwise fun i j => s.epochAt i = s.epochAt j → i < j := by
  refine h.pairwise_checked.imp ?_
  rintro i j ⟨f, g, hf, hg, hlt⟩ hepoch
  rw [epochAt, epochAt, hf, hg] at hepoch
  exact (hordered.lt_iff hf hg (Option.some.inj hepoch)).1 hlt

variable {sap : SapHeader} {tenantId : UInt64} {actions : List SessionAction}

theorem sound_of_run
    (hkeeps : Runs.Guarded (Session.step sourceId) (Keeps sourceId) (init sap tenantId) actions)
    (hrun : Runs.run (Session.step sourceId) (init sap tenantId) actions = some s) :
    s.Sound sourceId :=
  Runs.invariant_of_guarded (fun _ _ _ h hkeeps hstep => h.step hkeeps hstep)
    (sound_init sourceId sap tenantId) hkeeps hrun

theorem ordered_of_run
    (hwrap : Runs.Guarded (Session.step sourceId) BelowWrap (init sap tenantId) actions)
    (hrun : Runs.run (Session.step sourceId) (init sap tenantId) actions = some s) : s.Ordered :=
  Runs.invariant_of_guarded (fun _ _ _ h hwrap hstep => h.step hwrap hstep)
    (ordered_init sap tenantId) hwrap hrun

/-- **No frame is accepted twice, and none before an earlier one of its key.**  In every run in
which the receiver does not drop the source, whatever frames the sender sends and rotations it goes
through, and whatever the network does with them or invents, a frame that is checked is accepted at
most once; and if no frame is sent at the largest value of the counter, then of the checked frames
sent under one key those that are accepted are accepted in the order in which they were sent. -/
theorem run_atMostOnce (sourceId tenantId : UInt64) (sap : SapHeader)
    (actions : List SessionAction) (s : Session)
    (hkeeps : Runs.Guarded (Session.step sourceId) (Keeps sourceId) (init sap tenantId) actions)
    (hrun : Runs.run (Session.step sourceId) (init sap tenantId) actions = some s) :
    (∀ i, s.isChecked i = true → s.accepted.count i ≤ 1) ∧
      (Runs.Guarded (Session.step sourceId) BelowWrap (init sap tenantId) actions →
        (s.accepted.filter s.isChecked).Pairwise fun i j => s.epochAt i = s.epochAt j → i < j) := by
  have hsound := sound_of_run hkeeps hrun
  exact ⟨fun i hi => hsound.count_le_one hi,
    fun hwrap => hsound.pairwise_epoch (ordered_of_run hwrap hrun)⟩

/-- A request to send an empty data frame that is checked. -/
def sampleRequest : DataRequest :=
  { channelId := 1, sequenceId := 0, payload := []
    pfp := PfpHeader.new .executive .low .moving .safe .internal .normal true }

/-- The counter of its sender. -/
def sampleSap : SapHeader :=
  SapHeader.new 41 (Vector.replicate pahSize 0) (Vector.replicate sigSize 0)

/-- Three frames are sent.  The third overtakes the second, and comes again after it. -/
def overtaken : List SessionAction :=
  [.send sampleRequest, .send sampleRequest, .send sampleRequest, .deliver 0 5, .deliver 2 6,
    .deliver 1 7, .deliver 2 8]

/-- The state afterwards. -/
def afterOvertaken : Session :=
  (Runs.run (Session.step 7) (init sampleSap 1) overtaken).get (by decide +kernel)

/-- The third frame is accepted once, after the first. -/
theorem run_atMostOnce_overtaken :
    afterOvertaken.accepted.count 2 ≤ 1 ∧
      ((afterOvertaken.accepted.filter afterOvertaken.isChecked).Pairwise fun i j =>
        afterOvertaken.epochAt i = afterOvertaken.epochAt j → i < j) ∧
      afterOvertaken.accepted.filter afterOvertaken.isChecked = [0, 2] := by
  obtain ⟨honce, hordered⟩ := run_atMostOnce 7 1 sampleSap overtaken afterOvertaken
    (by decide +kernel) (Option.some_get _).symm
  exact ⟨honce 2 (by decide +kernel), hordered (by decide +kernel), by decide +kernel⟩

/-- A receiver that drops the source, as it does when the key is rotated, accepts a frame of the old
key again. -/
example : (Runs.run (Session.step 7) (init sampleSap 1)
    [.send sampleRequest, .deliver 0 5, .remove 7, .deliver 0 6]).map accepted = some [0, 0] := by
  decide +kernel

/-! ### What is accepted -/

/-- The step does not drop the source, forges none of its frames, and does not send at the largest
value of the counter. -/
def Faithful (sourceId : UInt64) (s : Session) (a : SessionAction) : Prop :=
  s.Keeps sourceId a ∧ s.Unforged sourceId a ∧ s.BelowWrap a

instance (sourceId : UInt64) (s : Session) (a : SessionAction) :
    Decidable (s.Faithful sourceId a) :=
  inferInstanceAs (Decidable (_ ∧ _))

/-- The number on record is the last one accepted. -/
def Exact (sourceId : UInt64) (s : Session) : Prop :=
  s.processor.lastSeq sourceId = s.acceptedSeqs.getLast?

theorem Exact.receive (h : s.Exact sourceId) (hf : s.sent[i]? = some f) (now : Instant) :
    (s.receive sourceId now i f).Exact sourceId := by
  have hprocessor : (s.receive sourceId now i f).processor =
      (s.processor.deliver (f.delivery sourceId now)).2 := by rw [Session.receive]
  rw [Exact, acceptedSeqs_receive hf, hprocessor]
  cases hseq : f.checkedSeq with
  | none =>
      rw [Option.toList_none, List.append_nil, ite_self, FrameProcessor.deliver_of_none]
      · exact h
      · rw [SentFrame.checkedSeq_delivery, hseq]
  | some seq =>
      have hchecked : (f.delivery sourceId now).checkedSeq = some seq := by
        rw [SentFrame.checkedSeq_delivery, hseq]
      by_cases hfresh : s.processor.replayCache.Fresh (s.processor.key sourceId) seq
      · obtain ⟨hallowed, hlast⟩ := FrameProcessor.deliver_of_fresh hchecked hfresh
        rw [if_pos hallowed, Option.toList_some, List.getLast?_concat]
        exact hlast
      · obtain ⟨hrejected, hlast⟩ := FrameProcessor.deliver_of_not_fresh hchecked hfresh
        rw [if_neg hrejected]
        exact hlast.trans h

/-- What another delivery preserves that is not forged. -/
theorem lastSeq_deliver_of_unforged {p : FrameProcessor} {d : Delivery}
    (h : d.sourceId = sourceId → d.checkedSeq = none) :
    (p.deliver d).2.lastSeq sourceId = p.lastSeq sourceId := by
  by_cases hsource : d.sourceId = sourceId
  · rw [FrameProcessor.deliver_of_none (h hsource)]
  · exact FrameProcessor.lastSeq_deliver_of_source_ne hsource

/-- **What a faithful step preserves of the record.** -/
theorem Exact.step (h : s.Exact sourceId) (hsound : s.Sound sourceId)
    (hfaithful : s.Faithful sourceId a) (hstep : Session.step sourceId s a = some s') :
    s'.Exact sourceId := by
  obtain ⟨hkeeps, hunforged, -⟩ := hfaithful
  rcases step_cases hstep with
    ⟨request, f, sender, -, -, -, -, rfl⟩ | ⟨action, sender, -, -, -, rfl⟩ |
    ⟨i, now, f, -, hf, rfl⟩ | ⟨processor, rfl, hprocessor⟩
  · rw [Exact, hsound.acceptedSeqs_send sender f]
    exact h
  · exact h
  · exact h.receive hf now
  · have hlast : processor.lastSeq sourceId = s.processor.lastSeq sourceId := by
      rcases hprocessor with ⟨d, rfl, rfl⟩ | ⟨clock, rfl, rfl⟩ | ⟨sourceId', rfl, rfl⟩
      · exact lastSeq_deliver_of_unforged hunforged
      · exact FrameProcessor.lastSeq_cleanupExpired_of_kept hkeeps
      · exact FrameProcessor.lastSeq_removeSource_of_kept hkeeps
    exact hlast.trans h

theorem faithful_of_run
    (hfaithful : Runs.Guarded (Session.step sourceId) (Faithful sourceId) (init sap tenantId)
      actions)
    (hrun : Runs.run (Session.step sourceId) (init sap tenantId) actions = some s) :
    s.Sound sourceId ∧ s.Ordered ∧ s.Exact sourceId := by
  refine Runs.invariant_of_guarded
    (P := fun s : Session => s.Sound sourceId ∧ s.Ordered ∧ s.Exact sourceId) ?_
    ⟨sound_init sourceId sap tenantId, ordered_init sap tenantId, rfl⟩ hfaithful hrun
  rintro s a s' ⟨hsound, hordered, hexact⟩ hfaithful hstep
  exact ⟨hsound.step hfaithful.1 hstep, hordered.step hfaithful.2.2 hstep,
    hexact.step hsound hfaithful hstep⟩

/-- **No frame is held back but for a later one.**  Take any run in which the receiver does not drop
the source, nobody else sends checked frames in its name, and no frame is sent at the largest value
of the counter.  As long as all checked frames that were accepted were sent under the key of a given
checked frame, and there is room for the source, the next delivery of that frame is accepted if and
only if it was sent after all of them.  So a network that loses, doubles and reorders nothing gets
every frame accepted. -/
theorem run_deliver_iff (sourceId tenantId : UInt64) (sap : SapHeader)
    (actions : List SessionAction) (s : Session)
    (hfaithful : Runs.Guarded (Session.step sourceId) (Faithful sourceId) (init sap tenantId)
      actions)
    (hrun : Runs.run (Session.step sourceId) (init sap tenantId) actions = some s)
    (i : ℕ) (f : SentFrame) (now : Instant) (hf : s.sent[i]? = some f)
    (hchecked : s.isChecked i = true)
    (hkey : ∀ j ∈ s.accepted, s.isChecked j = true → s.epochAt j = some f.epoch)
    (hroom : ¬ s.processor.replayCache.Crowded (s.processor.key sourceId)) :
    (s.processor.deliver (f.delivery sourceId now)).1 = .ok .allowed ↔
      ∀ j ∈ s.accepted, s.isChecked j = true → j < i := by
  obtain ⟨hsound, hordered, hexact⟩ := faithful_of_run hfaithful hrun
  obtain ⟨seq, hseq⟩ := Option.isSome_iff_exists.1 hchecked
  rw [checkedSeqAt_eq hf] at hseq
  have hdelivery : (f.delivery sourceId now).checkedSeq = some seq := by
    rw [SentFrame.checkedSeq_delivery, hseq]
  rw [FrameProcessor.deliver_allowed_iff hroom hdelivery]
  have hposition : ∀ j ∈ s.accepted, ∀ n, s.checkedSeqAt j = some n → (n < seq ↔ j < i) := by
    intro j hj n hn
    have hepoch := hkey j hj (Option.isSome_iff_exists.2 ⟨n, hn⟩)
    obtain ⟨g, hg, hgn⟩ := checkedSeqAt_eq_some_iff.1 hn
    rw [epochAt, hg] at hepoch
    rw [← hordered.lt_iff hg hf (Option.some.inj hepoch), seqCounter_of_checkedSeq hgn,
      seqCounter_of_checkedSeq hseq]
  constructor
  · intro hlast j hj hjchecked
    obtain ⟨n, hn⟩ := Option.isSome_iff_exists.1 hjchecked
    obtain ⟨last, hrecord, hle⟩ := hsound.onRecord n (List.mem_filterMap.2 ⟨j, hj, hn⟩)
    exact (hposition j hj n hn).1 (UInt16.lt_of_le_of_lt hle (hlast last hrecord))
  · intro hbefore last hrecord
    have hmem : last ∈ s.acceptedSeqs := List.mem_of_getLast? (hexact.symm.trans hrecord)
    obtain ⟨j, hj, hlast⟩ := List.mem_filterMap.1 hmem
    exact (hposition j hj last hlast).2 (hbefore j hj (Option.isSome_iff_exists.2 ⟨last, hlast⟩))

/-- The two frames in order, up to the delivery of the second. -/
def inOrder : List SessionAction := [.send sampleRequest, .send sampleRequest, .deliver 0 5]

/-- The state then. -/
def afterInOrder : Session :=
  (Runs.run (Session.step 7) (init sampleSap 1) inOrder).get (by decide +kernel)

/-- The second frame. -/
def secondFrame : SentFrame := (afterInOrder.sent[1]?).get (by decide +kernel)

/-- It is accepted, since it was sent after the first. -/
theorem run_deliver_iff_inOrder :
    (afterInOrder.processor.deliver (secondFrame.delivery 7 6)).1 = .ok .allowed ↔
      ∀ j ∈ afterInOrder.accepted, afterInOrder.isChecked j = true → j < 1 :=
  run_deliver_iff 7 1 sampleSap inOrder afterInOrder (by decide +kernel) (Option.some_get _).symm 1
    secondFrame 6 (Option.some_get _).symm (by decide +kernel) (by decide +kernel)
    (by decide +kernel)

end Session

end Bind19
