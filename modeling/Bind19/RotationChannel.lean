/-
**Key rotation over a lossy channel.**

A sender that drives the rotation state machine and a receiver that answers every KEY_ROTATION
frame with one ACK exchange messages over a channel that delays, loses and reorders them.  The
sender is meant to switch keys only when the receiver has the new one.  An ACK does not say which
frame it answers, and the state machine takes any ACK for the answer to the frame it is waiting
for; one that a retransmission has left in the channel can arrive during the next rotation.

The model keeps, as history, the payloads of all rotations begun and, with every ACK in the
channel, the payload of the frame it answers.  It is shown that the sender is right about the
receiver in every run in which no ACK is taken for the answer to another rotation's frame.

Main definitions:

* `Bind19.RotationLink`, `Bind19.RotationLink.step` — the two parties and the channel;
* `Bind19.RotationLink.answersPending` — the ACK that is delivered answers the pending rotation;
* `Bind19.RotationLink.Agreed`, `Bind19.RotationLink.Genuine` — the invariants.

Main results:

* `Bind19.RotationLink.run_genuine` — the receiver gets no payload that the sender has not sent;
* `Bind19.RotationLink.Agreed.step` — what one step preserves;
* `Bind19.RotationLink.run_agreed` — **the receiver has the key of a completed rotation**.
-/

import Bind19.Rotation
import Bind19.Runs

set_option relaxedAutoImplicit false
set_option autoImplicit false

namespace Bind19

/-! ### The two parties and the channel -/

/-- The sender, the messages in the channel, the receiver, and as history the rotations begun. -/
structure RotationLink where
  machine : KeyRotationStateMachine
  /-- The payloads of the KEY_ROTATION frames in the channel. -/
  frames : List (List UInt8)
  /-- The ACKs in the channel, each with the payload of the frame it answers. -/
  acks : List KeyRotationPayload
  /-- The payloads the receiver has received. -/
  received : List KeyRotationPayload
  /-- The payloads of the rotations begun, the current one last. -/
  begun : List KeyRotationPayload

/-- What happens next. -/
inductive LinkAction
  | start (payload : KeyRotationPayload)
  | timeout
  | complete
  | reset
  | deliverFrame (i : ℕ)
  | loseFrame (i : ℕ)
  | deliverAck (i : ℕ)
  | loseAck (i : ℕ)
  deriving DecidableEq

namespace RotationLink

/-- Nothing has happened yet. -/
def init : RotationLink :=
  { machine := KeyRotationStateMachine.new, frames := [], acks := [], received := [], begun := [] }

/-- One step of the sender, the receiver or the channel. -/
def step (s : RotationLink) : LinkAction → Option RotationLink
  | .start payload =>
      match s.machine.startRotation payload with
      | (.ok sent, machine) =>
          some { s with machine, frames := s.frames ++ [sent.encode]
                        begun := s.begun ++ [payload] }
      | (.error _, machine) => some { s with machine }
  | .timeout =>
      match s.machine.handleTimeout with
      | none => none
      | some (.retry sent, machine) =>
          some { s with machine, frames := s.frames ++ [sent.encode] }
      | some (_, machine) => some { s with machine }
  | .complete => some { s with machine := s.machine.completeRotation.2 }
  | .reset => some { s with machine := s.machine.manualReset.2 }
  | .deliverFrame i =>
      match s.frames[i]? with
      | none => none
      | some bytes =>
          -- the receiver decodes the payload and answers
          match KeyRotationPayload.decode bytes with
          | .ok payload =>
              some { s with frames := s.frames.eraseIdx i, acks := s.acks ++ [payload],
                            received := s.received ++ [payload] }
          | .error _ => some { s with frames := s.frames.eraseIdx i }
  | .loseFrame i => some { s with frames := s.frames.eraseIdx i }
  | .deliverAck i =>
      match s.acks[i]? with
      | none => none
      | some _ => some { s with machine := s.machine.handleAck.2, acks := s.acks.eraseIdx i }
  | .loseAck i => some { s with acks := s.acks.eraseIdx i }

/-- An ACK that arrives while one is awaited answers a frame of the pending rotation. -/
def answersPending (s : RotationLink) : LinkAction → Bool
  | .deliverAck i =>
      match s.acks[i]?, s.machine.isRotationPending with
      | some payload, true => s.machine.pendingPayload == some payload
      | _, _ => true
  | _ => true

/-! ### What a step can do -/

/-- What an action can do. -/
inductive LinkStep (s : RotationLink) : LinkAction → RotationLink → Prop
  | started (payload : KeyRotationPayload) :
      LinkStep s (.start payload)
        { s with machine := { state := .pending 0, pendingPayload := some payload }
                 frames := s.frames ++ [payload.encode], begun := s.begun ++ [payload] }
  | repeated (machine : KeyRotationStateMachine) (sent : KeyRotationPayload)
      (hmove : RotationMove s.machine .handleTimeout machine)
      (hsent : s.machine.pendingPayload = some sent) :
      LinkStep s .timeout { s with machine, frames := s.frames ++ [sent.encode] }
  /-- The state machine moves, and nothing is sent. -/
  | moved (a : LinkAction) (op : RotationOp) (machine : KeyRotationStateMachine)
      (hmove : RotationMove s.machine op machine) (hop : ∀ payload, op ≠ .startRotation payload)
      (hack : op ≠ .handleAck) :
      LinkStep s a { s with machine }
  | received (i : ℕ) (bytes : List UInt8) (payload : KeyRotationPayload) (hmem : bytes ∈ s.frames)
      (hdecode : KeyRotationPayload.decode bytes = .ok payload) :
      LinkStep s (.deliverFrame i)
        { s with frames := s.frames.eraseIdx i, acks := s.acks ++ [payload]
                 received := s.received ++ [payload] }
  | frameLost (a : LinkAction) (i : ℕ) : LinkStep s a { s with frames := s.frames.eraseIdx i }
  | acked (i : ℕ) (payload : KeyRotationPayload) (hget : s.acks[i]? = some payload) :
      LinkStep s (.deliverAck i)
        { s with machine := s.machine.handleAck.2, acks := s.acks.eraseIdx i }
  | ackLost (i : ℕ) : LinkStep s (.loseAck i) { s with acks := s.acks.eraseIdx i }

variable {s s' : RotationLink} {a : LinkAction}

/-- **What an action can do.** -/
theorem step_cases (h : s.step a = some s') : LinkStep s a s' := by
  cases a with
  | start payload =>
      rw [step, KeyRotationStateMachine.startRotation] at h
      by_cases hidle : s.machine.state = .idle
      · rw [if_neg (not_not.2 hidle)] at h
        obtain rfl := Option.some.inj h
        exact .started payload
      · rw [if_pos hidle] at h
        obtain rfl := Option.some.inj h
        exact .moved _ .manualReset s.machine (.refused _) (by simp) (by simp)
  | timeout =>
      rw [step] at h
      cases htimeout : s.machine.handleTimeout with
      | none =>
          rw [htimeout] at h
          cases h
      | some answer =>
          obtain ⟨result, machine⟩ := answer
          have hmove : RotationMove s.machine .handleTimeout machine :=
            KeyRotationStateMachine.apply_cases (by
              rw [KeyRotationStateMachine.apply, htimeout]
              rfl)
          rw [htimeout] at h
          cases result with
          | retry sent =>
              obtain rfl := Option.some.inj h
              exact .repeated machine sent hmove
                (KeyRotationStateMachine.pendingPayload_of_retry htimeout)
          | failed | ignored =>
              obtain rfl := Option.some.inj h
              exact .moved _ _ machine hmove (by simp) (by simp)
  | complete =>
      obtain rfl := Option.some.inj h
      exact .moved _ .completeRotation _ (KeyRotationStateMachine.apply_cases rfl) (by simp)
        (by simp)
  | reset =>
      obtain rfl := Option.some.inj h
      exact .moved _ .manualReset _ (KeyRotationStateMachine.apply_cases rfl) (by simp) (by simp)
  | deliverFrame i =>
      rw [step] at h
      cases hget : s.frames[i]? with
      | none =>
          rw [hget] at h
          cases h
      | some bytes =>
          rw [hget] at h
          dsimp only at h
          cases hdecode : KeyRotationPayload.decode bytes with
          | ok payload =>
              rw [hdecode] at h
              obtain rfl := Option.some.inj h
              exact .received i bytes payload (List.mem_of_getElem? hget) hdecode
          | error e =>
              rw [hdecode] at h
              obtain rfl := Option.some.inj h
              exact .frameLost _ i
  | loseFrame i =>
      obtain rfl := Option.some.inj h
      exact .frameLost _ i
  | deliverAck i =>
      rw [step] at h
      cases hget : s.acks[i]? with
      | none =>
          rw [hget] at h
          cases h
      | some payload =>
          rw [hget] at h
          obtain rfl := Option.some.inj h
          exact .acked i payload hget
  | loseAck i =>
      obtain rfl := Option.some.inj h
      exact .ackLost i

/-- What is pending after an operation other than a start was pending before. -/
theorem pendingPayload_of_move {m m' : KeyRotationStateMachine} {op : RotationOp}
    (hmove : RotationMove m op m') (hop : ∀ payload, op ≠ .startRotation payload)
    {payload : KeyRotationPayload} (h : m'.pendingPayload = some payload) :
    m.pendingPayload = some payload := by
  cases hmove with
  | started p => exact absurd rfl (hop p)
  | refused | retried | completed => exact h
  | acked | gaveUp | reset => cases h

/-! ### The channel forges nothing -/

/-- What is in the channel and what has left it was sent in a rotation begun by the sender. -/
structure Genuine (s : RotationLink) : Prop where
  pending : ∀ payload, s.machine.pendingPayload = some payload → payload ∈ s.begun
  frames : ∀ bytes ∈ s.frames, ∃ payload ∈ s.begun, bytes = payload.encode
  received : ∀ payload ∈ s.received, payload ∈ s.begun

theorem genuine_init : init.Genuine where
  pending _ h := by cases h
  frames _ h := by cases h
  received _ h := by cases h

theorem Genuine.step (h : s.Genuine) (hstep : s.step a = some s') : s'.Genuine := by
  cases step_cases hstep with
  | started payload =>
      have hmem : ∀ p ∈ s.begun, p ∈ s.begun ++ [payload] := fun p hp => List.mem_append_left _ hp
      refine ⟨fun p hp => ?_, fun bytes hbytes => ?_, fun p hp => hmem p (h.received p hp)⟩
      · obtain rfl := Option.some.inj hp
        exact List.mem_append_right _ (List.mem_singleton.2 rfl)
      · rcases List.mem_append.1 hbytes with hbytes | hbytes
        · obtain ⟨p, hp, heq⟩ := h.frames bytes hbytes
          exact ⟨p, hmem p hp, heq⟩
        · exact ⟨payload, by simp, List.mem_singleton.1 hbytes⟩
  | repeated machine sent hmove hsent =>
      refine ⟨fun p hp => h.pending p (pendingPayload_of_move hmove (by simp) hp),
        fun bytes hbytes => ?_, h.received⟩
      rcases List.mem_append.1 hbytes with hbytes | hbytes
      · exact h.frames bytes hbytes
      · exact ⟨sent, h.pending sent hsent, List.mem_singleton.1 hbytes⟩
  | moved _ op machine hmove hop =>
      exact ⟨fun p hp => h.pending p (pendingPayload_of_move hmove hop hp), h.frames, h.received⟩
  | received i bytes payload hbytes hdecode =>
      refine ⟨h.pending, fun bs hbs => h.frames bs (List.mem_of_mem_eraseIdx hbs), fun p hp => ?_⟩
      rcases List.mem_append.1 hp with hp | hp
      · exact h.received p hp
      · -- the frame carries what the sender has encoded
        obtain ⟨q, hq, rfl⟩ := h.frames bytes hbytes
        rw [KeyRotationPayload.decode_encode] at hdecode
        cases hdecode
        rw [List.mem_singleton.1 hp]
        exact hq
  | frameLost _ i =>
      exact ⟨h.pending, fun bs hbs => h.frames bs (List.mem_of_mem_eraseIdx hbs), h.received⟩
  | acked i payload hget =>
      have hmove : RotationMove s.machine .handleAck s.machine.handleAck.2 :=
        KeyRotationStateMachine.apply_cases rfl
      exact ⟨fun p hp => h.pending p (pendingPayload_of_move hmove (by simp) hp), h.frames,
        h.received⟩
  | ackLost i => exact ⟨h.pending, h.frames, h.received⟩

/-- **The receiver gets no payload that the sender has not sent.** -/
theorem run_genuine {actions : List LinkAction}
    (hrun : Runs.run RotationLink.step init actions = some s) :
    ∀ payload ∈ s.received, payload ∈ s.begun :=
  (Runs.invariant (P := Genuine) (fun _ _ _ h hstep => h.step hstep) genuine_init hrun).received

/-! ### What the sender knows about the receiver -/

/-- The payload that is pending is that of the current rotation, every ACK in the channel answers a
frame that has been received, and the payload of a completed rotation has been received. -/
structure Agreed (s : RotationLink) : Prop where
  pending : ∀ retries, s.machine.state = .pending retries →
    ∃ payload, s.machine.pendingPayload = some payload ∧ s.begun.getLast? = some payload
  acks : ∀ payload ∈ s.acks, payload ∈ s.received
  rotated : s.machine.state = .rotated →
    ∃ payload, s.begun.getLast? = some payload ∧ payload ∈ s.received

theorem agreed_init : init.Agreed where
  pending _ h := by cases h
  acks _ h := by cases h
  rotated h := by cases h

/-- A move of the state machine that neither starts nor completes a rotation. -/
theorem Agreed.move (h : s.Agreed) {op : RotationOp} {machine : KeyRotationStateMachine}
    (hmove : RotationMove s.machine op machine) (hop : ∀ payload, op ≠ .startRotation payload)
    (hack : op ≠ .handleAck) (frames : List (List UInt8)) :
    Agreed { s with machine, frames } := by
  cases hmove with
  | started payload => exact absurd rfl (hop payload)
  | acked => exact absurd rfl hack
  | refused => exact ⟨h.pending, h.acks, h.rotated⟩
  | retried retries payload hfrom =>
      exact ⟨fun _ _ => h.pending retries hfrom, h.acks, nofun⟩
  | gaveUp | reset =>
      exact ⟨nofun, h.acks, nofun⟩
  | completed =>
      exact ⟨nofun, h.acks, nofun⟩

/-- **What one step preserves**, as long as an ACK is not taken for the answer to another rotation's
frame. -/
theorem Agreed.step (h : s.Agreed) (hanswers : s.answersPending a = true)
    (hstep : s.step a = some s') : s'.Agreed := by
  cases step_cases hstep with
  | started payload =>
      refine ⟨fun _ _ => ⟨payload, rfl, List.getLast?_concat⟩, h.acks, nofun⟩
  | repeated machine sent hmove => exact h.move hmove (by simp) (by simp) _
  | moved _ op machine hmove hop hack => exact h.move hmove hop hack s.frames
  | received i bytes payload =>
      refine ⟨h.pending, fun p hp => ?_, fun hstate => ?_⟩
      · rcases List.mem_append.1 hp with hp | hp
        · exact List.mem_append_left _ (h.acks p hp)
        · exact List.mem_append_right _ hp
      · obtain ⟨p, hp, hmem⟩ := h.rotated hstate
        exact ⟨p, hp, List.mem_append_left _ hmem⟩
  | frameLost _ i => exact ⟨h.pending, h.acks, h.rotated⟩
  | acked i payload hget =>
      have hacks : ∀ p ∈ s.acks.eraseIdx i, p ∈ s.received :=
        fun p hp => h.acks p (List.mem_of_mem_eraseIdx hp)
      unfold KeyRotationStateMachine.handleAck
      cases hstate : s.machine.state with
      | pending retries =>
          -- the ACK answers a frame of the current rotation, which has therefore been received
          obtain ⟨p, hp, hlast⟩ := h.pending retries hstate
          rw [answersPending, hget, KeyRotationStateMachine.isRotationPending, hstate, hp]
            at hanswers
          have hpayload : p = payload := by simpa using hanswers
          refine ⟨nofun, hacks, fun _ => ⟨p, hlast, ?_⟩⟩
          exact h.acks p (hpayload ▸ List.mem_of_getElem? hget)
      | _ => exact ⟨h.pending, hacks, h.rotated⟩
  | ackLost i =>
      exact ⟨h.pending, fun p hp => h.acks p (List.mem_of_mem_eraseIdx hp), h.rotated⟩

/-- **The receiver has the key of a completed rotation.**  In every run in which each ACK that
arrives while one is awaited answers a frame of the pending rotation, a sender that has seen its
rotation acknowledged has begun one, and the receiver has received its payload. -/
theorem run_agreed (actions : List LinkAction) (s : RotationLink)
    (hrun : Runs.run RotationLink.step init actions = some s)
    (hanswers : Runs.Guarded RotationLink.step (fun s a => s.answersPending a = true) init actions)
    (hrotated : s.machine.state = .rotated) :
    ∃ payload, s.begun.getLast? = some payload ∧ payload ∈ s.received :=
  (Runs.invariant_of_guarded (P := Agreed) (fun _ _ _ h hanswers hstep => h.step hanswers hstep)
    agreed_init hanswers hrun).rotated hrotated

/-- A payload with a nonce of equal bytes and a key of one byte. -/
def samplePayload (n : UInt8) : KeyRotationPayload :=
  { nonce := Vector.replicate nonceSize n, newKeyEncrypted := [n] }

/-- A rotation whose frame is repeated once and acknowledged twice. -/
def repeatedRotation : List LinkAction :=
  [.start (samplePayload 1), .timeout, .deliverFrame 0, .deliverFrame 0, .deliverAck 0]

/-- The state after it. -/
def afterRepeatedRotation : RotationLink :=
  (Runs.run RotationLink.step init repeatedRotation).get (by decide)

/-- The receiver has the key of that rotation. -/
theorem run_agreed_repeatedRotation :
    ∃ payload, afterRepeatedRotation.begun.getLast? = some payload ∧
      payload ∈ afterRepeatedRotation.received :=
  run_agreed repeatedRotation afterRepeatedRotation (Option.some_get _).symm (by decide) (by decide)

/-- The second ACK of that rotation arrives when the next one has begun. -/
def lateAck : List LinkAction :=
  repeatedRotation ++ [.complete, .start (samplePayload 2), .deliverAck 0]

/-- The sender has seen its second rotation acknowledged, and the receiver has nothing but the key
of the first. -/
theorem run_lateAck :
    (Runs.run RotationLink.step init lateAck).map
        (fun s => (s.machine.state, s.begun.getLast?, s.received)) =
      some (.rotated, some (samplePayload 2), [samplePayload 1, samplePayload 1]) := by
  decide

end RotationLink

end Bind19
