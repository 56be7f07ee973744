/-
**The sequence counter and the rotation of the key.**

A sender numbers its data frames with the counter of its SAP and rotates the key before the counter
wraps around: it sends only while the state machine lets it, starts a rotation before its next
frame when the state machine calls for one, and resets the counter when a rotation is complete.
While a rotation is pending the sender goes on with the old key, and nothing limits the number of
frames it sends then; the state machine looks at the counter only when it is idle.

The numbers sent under one key are followed here along a run.  They ascend in exactly those runs in
which no frame is sent when the counter has reached its largest value.

Main definitions:

* `Bind19.CountingSender`, `Bind19.CountingSender.step` — the sender, and one step;
* `Bind19.CountingSender.epochs` — the numbers sent under each key.

Main results:

* `Bind19.CountingSender.Counting.step` — the counter is the last number sent;
* `Bind19.CountingSender.ascending_step_iff` — which steps keep the numbers ascending;
* `Bind19.CountingSender.run_ascending_iff` — **the numbers sent under one key ascend exactly when
  no frame is sent at the largest value of the counter**.
-/

import Bind19.Ascending
import Bind19.Rotation
import Bind19.Runs
import Bind19.Sap

set_option relaxedAutoImplicit false
set_option autoImplicit false

namespace Bind19

/-! ### The sender -/

/-- A sender, and as history the numbers it has sent since its last completed rotation and in the
epochs before. -/
structure CountingSender where
  sap : SapHeader
  machine : KeyRotationStateMachine
  sent : List UInt16
  finished : List (List UInt16)

/-- What happens next. -/
inductive SenderAction
  | send
  | start (payload : KeyRotationPayload)
  | ack
  | timeout
  | reset
  /-- Complete the rotation, and begin again with this value of the counter. -/
  | complete (restart : UInt16)
  deriving DecidableEq

namespace CountingSender

/-- A sender before its first frame. -/
def init (sap : SapHeader) : CountingSender :=
  { sap, machine := KeyRotationStateMachine.new, sent := [], finished := [] }

/-- The numbers sent under each key, the current one last. -/
def epochs (s : CountingSender) : List (List UInt16) := s.finished ++ [s.sent]

/-- One step of the sender.  It sends when it may and is not called upon to rotate the key, and it
resets the counter, to a value below the threshold, when a rotation is complete. -/
def step (s : CountingSender) : SenderAction → Option CountingSender
  | .send =>
      if s.machine.canSendData && !s.machine.shouldRotate s.sap.seqCounter then
        let (seq, sap) := s.sap.incrementSeq
        some { s with sap, sent := s.sent ++ [seq] }
      else none
  | .start payload => some { s with machine := (s.machine.startRotation payload).2 }
  | .ack => some { s with machine := s.machine.handleAck.2 }
  | .timeout => s.machine.handleTimeout.map fun answer => { s with machine := answer.2 }
  | .reset => some { s with machine := s.machine.manualReset.2 }
  | .complete restart =>
      match s.machine.completeRotation with
      | (.ok _, machine) =>
          if restart < rotationThreshold then
            some { sap := { s.sap with seqCounter := restart }, machine, sent := []
                   finished := s.finished ++ [s.sent] }
          else none
      | (.error _, machine) => some { s with machine }

variable {s s' : CountingSender} {a : SenderAction}

/-- What a step does to the counter and to the numbers sent: it sends the next number, or completes
an epoch, or leaves them as they are. -/
theorem step_cases (h : s.step a = some s') :
    (a = .send ∧ s'.sap = s.sap.incrementSeq.2 ∧ s'.sent = s.sent ++ [s.sap.incrementSeq.1] ∧
        s'.finished = s.finished) ∨
      (a ≠ .send ∧ s'.sap.seqCounter < rotationThreshold ∧ s'.sent = [] ∧
        s'.finished = s.finished ++ [s.sent]) ∨
      (a ≠ .send ∧ s'.sap = s.sap ∧ s'.sent = s.sent ∧ s'.finished = s.finished) := by
  cases a with
  | send =>
      rw [step] at h
      split at h
      · obtain rfl := Option.some.inj h
        exact Or.inl ⟨rfl, rfl, rfl, rfl⟩
      · cases h
  | timeout =>
      rw [step, Option.map_eq_some_iff] at h
      obtain ⟨answer, -, rfl⟩ := h
      exact Or.inr (Or.inr ⟨by simp, rfl, rfl, rfl⟩)
  | complete restart =>
      rw [step, KeyRotationStateMachine.completeRotation] at h
      cases hstate : s.machine.state with
      | rotated =>
          rw [hstate] at h
          dsimp only at h
          split at h
          · rename_i hlt
            obtain rfl := Option.some.inj h
            exact Or.inr (Or.inl ⟨by simp, hlt, rfl, rfl⟩)
          · cases h
      | _ =>
          rw [hstate] at h
          obtain rfl := Option.some.inj h
          exact Or.inr (Or.inr ⟨by simp, rfl, rfl, rfl⟩)
  | _ =>
      obtain rfl := Option.some.inj h
      exact Or.inr (Or.inr ⟨by simp, rfl, rfl, rfl⟩)

/-! ### The counter and the last number -/

/-- The counter is the last number sent under the current key, or below the threshold. -/
structure Counting (s : CountingSender) : Prop where
  last : ∀ seq, s.sent.getLast? = some seq → s.sap.seqCounter = seq
  fresh : s.sent = [] → s.sap.seqCounter < rotationThreshold

theorem counting_init {sap : SapHeader} (h : sap.seqCounter < rotationThreshold) :
    (init sap).Counting where
  last _ hseq := by cases hseq
  fresh _ := h

/-- What one step preserves. -/
theorem Counting.step (h : s.Counting) (hstep : s.step a = some s') : s'.Counting := by
  rcases step_cases hstep with
    ⟨-, hsap, hsent, -⟩ | ⟨-, hlt, hsent, -⟩ | ⟨-, hsap, hsent, -⟩
  · refine ⟨fun seq hseq => ?_, fun hnil => ?_⟩
    · rw [hsent, List.getLast?_concat] at hseq
      rw [hsap, ← Option.some.inj hseq]
      rfl
    · rw [hsent] at hnil
      simp at hnil
  · refine ⟨fun seq hseq => ?_, fun _ => hlt⟩
    rw [hsent] at hseq
    cases hseq
  · exact ⟨hsent ▸ hsap ▸ h.last, hsent ▸ hsap ▸ h.fresh⟩

/-! ### When the numbers ascend -/

/-- The numbers sent under each key ascend strictly. -/
def Ascending (s : CountingSender) : Prop := ∀ epoch ∈ s.epochs, epoch.Pairwise (· < ·)

/-- The action does not send a frame at the largest value of the counter. -/
def BelowWrap (s : CountingSender) (a : SenderAction) : Prop :=
  a = .send → s.sap.seqCounter ≠ 65535

instance (s : CountingSender) (a : SenderAction) : Decidable (s.BelowWrap a) :=
  inferInstanceAs (Decidable (a = .send → s.sap.seqCounter ≠ 65535))

theorem ascending_iff : s.Ascending ↔
    (∀ epoch ∈ s.finished, epoch.Pairwise (· < ·)) ∧ s.sent.Pairwise (· < ·) := by
  rw [Ascending, epochs]
  simp only [List.mem_append, List.mem_singleton, or_imp, forall_and, forall_eq]

/-- The next number is above the last one unless the counter wraps around. -/
theorem Counting.pairwise_concat_iff (h : s.Counting) :
    (s.sent ++ [s.sap.incrementSeq.1]).Pairwise (· < ·) ↔
      s.sent.Pairwise (· < ·) ∧ s.sap.seqCounter ≠ 65535 := by
  rw [Ascending.pairwise_concat_iff (r := fun a b : UInt16 => a < b) UInt16.lt_trans]
  refine and_congr_right fun _ => ⟨fun hlast hmax => ?_, fun hmax seq hseq => ?_⟩
  · cases hsent : s.sent.getLast? with
    | none =>
        -- the first number of an epoch is not reached by wrapping around
        have hlt := h.fresh (List.getLast?_eq_none_iff.1 hsent)
        rw [hmax] at hlt
        exact absurd hlt (by decide)
    | some seq =>
        have hlt := hlast seq hsent
        rw [SapHeader.incrementSeq_wrap hmax] at hlt
        exact absurd hlt (by simp [UInt16.lt_iff_toNat_lt])
  · rw [← h.last seq hseq]
    exact SapHeader.incrementSeq_lt hmax

/-- **Which steps keep the numbers ascending.** -/
theorem ascending_step_iff (h : s.Counting) (hstep : s.step a = some s') :
    s'.Ascending ↔ s.Ascending ∧ s.BelowWrap a := by
  rw [ascending_iff, ascending_iff, BelowWrap]
  rcases step_cases hstep with
    ⟨rfl, -, hsent, hfinished⟩ | ⟨ha, -, hsent, hfinished⟩ | ⟨ha, -, hsent, hfinished⟩
  · rw [hsent, hfinished, h.pairwise_concat_iff, and_assoc]
    simp
  · rw [hsent, hfinished]
    simp [ha, or_imp, forall_and]
  · rw [hsent, hfinished]
    simp [ha]

/-! ### Runs -/

/-- **The numbers sent under one key ascend exactly when no frame is sent at the largest value of
the counter.**  In every run from a counter below the threshold, with acknowledgements, timeouts,
resets and completed rotations in any order and any number of frames between them, the numbers sent
between two completed rotations ascend strictly if and only if each frame is sent before the
counter has reached its largest value. -/
theorem run_ascending_iff (sap : SapHeader) (actions : List SenderAction) (s : CountingSender)
    (hsap : sap.seqCounter < rotationThreshold)
    (hrun : Runs.run step (init sap) actions = some s) :
    (∀ epoch ∈ s.epochs, epoch.Pairwise (· < ·)) ↔
      Runs.Guarded step BelowWrap (init sap) actions := by
  have hiff := Runs.iff_guarded (fun _ _ _ h hstep => Counting.step h hstep)
    (fun _ _ _ h hstep => ascending_step_iff h hstep) (counting_init hsap) hrun
  have hinit : (init sap).Ascending := by
    intro epoch hmem
    rw [List.mem_singleton.1 hmem]
    exact List.Pairwise.nil
  exact hiff.trans ⟨fun h => h.2, fun h => ⟨hinit, h⟩⟩

/-- A sender whose counter is just below the threshold. -/
def nearlyWrapped : SapHeader :=
  SapHeader.new 65533 (Vector.replicate pahSize 0) (Vector.replicate sigSize 0)

/-- The payload of its rotation. -/
def nextKey : KeyRotationPayload :=
  { nonce := Vector.replicate nonceSize 1, newKeyEncrypted := [1] }

/-- It sends one frame, rotates the key and goes on under the new one. -/
def timelyRotation : List SenderAction :=
  [.send, .start nextKey, .send, .ack, .complete 0, .send]

/-- The state afterwards. -/
def afterTimelyRotation : CountingSender :=
  (Runs.run step (init nearlyWrapped) timelyRotation).get (by decide)

/-- Its numbers ascend as long as the counter does not wrap around. -/
theorem run_ascending_iff_timelyRotation :
    (∀ epoch ∈ afterTimelyRotation.epochs, epoch.Pairwise (· < ·)) ↔
      Runs.Guarded step BelowWrap (init nearlyWrapped) timelyRotation :=
  run_ascending_iff nearlyWrapped timelyRotation afterTimelyRotation (by decide)
    (Option.some_get _).symm

/-- While its rotation is pending, the sender sends two frames more; and so again while the next
one is. -/
def slowRotation : List SenderAction :=
  [.send, .start nextKey, .send, .send, .ack, .complete 65533, .send, .start nextKey, .send, .send,
    .ack, .complete 0]

/-- The second of them has the number zero, under the same key, also between the two completed
rotations. -/
theorem run_slowRotation :
    nearlyWrapped.seqCounter < rotationThreshold ∧
      (Runs.run step (init nearlyWrapped) slowRotation).map epochs =
        some [[65534, 65535, 0], [65534, 65535, 0], []] ∧
      ¬ [65534, 65535, 0].Pairwise (fun a b : UInt16 => a < b) := by
  decide

end CountingSender

end Bind19
