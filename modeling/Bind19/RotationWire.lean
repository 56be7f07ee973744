/-
**Key rotation in frames.**

The channel of `Bind19/RotationChannel.lean` carries payloads in one direction and ACKs in the
other.  What travels in fact are byte strings: the sender puts its payload into a KEY_ROTATION frame
and the receiver its answer into a KEY_ROTATION_ACK frame without a payload, and each of them parses
what it gets and looks at the type.  Here the two parties are written once more with frames, and
shown to be the image of the first system, step by step and run by run: nothing can happen with the
frames that cannot happen with the messages, and nothing that can is lost.

The state machine begins a rotation before the frame is built.  A payload that does not fit into a
frame leaves it waiting for the answer to a frame that was never sent; the two systems agree for as
long as the payloads fit.

Main definitions:

* `Bind19.RotationWire`, `Bind19.RotationWire.step` — the two parties and the frames under way;
* `Bind19.RotationWire.ofLink` — the messages of the channel as frames.

Main results:

* `Bind19.RotationWire.step_ofLink` — one step is the image of one step;
* `Bind19.RotationWire.run_ofLink` — **a run with frames is the image of the run with messages**.
-/

import Bind19.FrameCodec
import Bind19.RotationChannel
import Mathlib.Data.List.InsertIdx

set_option relaxedAutoImplicit false
set_option autoImplicit false

namespace Bind19

/-- The sender, the frames under way in both directions, and what the receiver has received. -/
structure RotationWire where
  machine : KeyRotationStateMachine
  toReceiver : List (List UInt8)
  toSender : List (List UInt8)
  received : List KeyRotationPayload

namespace RotationWire

variable (channelId : UInt8)

/-- Nothing has happened yet. -/
def init : RotationWire :=
  { machine := KeyRotationStateMachine.new, toReceiver := [], toSender := [], received := [] }

/-- The sender sends a payload, if it fits into a frame. -/
def transmit (w : RotationWire) (payload : KeyRotationPayload) : RotationWire :=
  match BindFrame.new .keyRotation channelId 0 none none payload.encode with
  | .ok frame => { w with toReceiver := w.toReceiver ++ [frame.encode] }
  | .error _ => w

/-- The receiver answers. -/
def acknowledge (w : RotationWire) : RotationWire :=
  match BindFrame.newV1 .keyRotationAck channelId 0 [] with
  | .ok frame => { w with toSender := w.toSender ++ [frame.encode] }
  | .error _ => w

/-- The receiver gets a byte string.  It answers a KEY_ROTATION frame whose payload it can read. -/
def receive (w : RotationWire) (bytes : List UInt8) : RotationWire :=
  match BindFrame.decode bytes with
  | .error _ => w
  | .ok frame =>
      if frame.header.frameType = .keyRotation then
        match KeyRotationPayload.decode frame.payload with
        | .ok payload =>
            { w with received := w.received ++ [payload] }.acknowledge channelId
        | .error _ => w
      else w

/-- The sender gets a byte string.  It hands a KEY_ROTATION_ACK frame to the state machine. -/
def answer (w : RotationWire) (bytes : List UInt8) : RotationWire :=
  match BindFrame.decode bytes with
  | .error _ => w
  | .ok frame =>
      if frame.header.frameType = .keyRotationAck then { w with machine := w.machine.handleAck.2 }
      else w

/-- One step of the sender, the receiver or the channel. -/
def step (w : RotationWire) : LinkAction → Option RotationWire
  | .start payload =>
      match w.machine.startRotation payload with
      | (.ok sent, machine) => some ({ w with machine }.transmit channelId sent)
      | (.error _, machine) => some { w with machine }
  | .timeout =>
      match w.machine.handleTimeout with
      | none => none
      | some (.retry sent, machine) => some ({ w with machine }.transmit channelId sent)
      | some (_, machine) => some { w with machine }
  | .complete => some { w with machine := w.machine.completeRotation.2 }
  | .reset => some { w with machine := w.machine.manualReset.2 }
  | .deliverFrame i =>
      w.toReceiver[i]?.map
        ({ w with toReceiver := w.toReceiver.eraseIdx i }.receive channelId)
  | .loseFrame i => some { w with toReceiver := w.toReceiver.eraseIdx i }
  | .deliverAck i =>
      w.toSender[i]?.map { w with toSender := w.toSender.eraseIdx i }.answer
  | .loseAck i => some { w with toSender := w.toSender.eraseIdx i }

/-! ### The frames -/

/-- A frame without layers. -/
def plainFrame (frameType : FrameType) (payload : List UInt8) : BindFrame :=
  { header := BindHeader.new frameType channelId (BindFrame.presenceFlags false false) 0
      (UInt32.ofNat payload.length)
    pfp := none, sap := none, payload }

/-- The messages of the channel as frames. -/
def ofLink (s : RotationLink) : RotationWire :=
  { machine := s.machine
    toReceiver := s.frames.map fun bytes => (plainFrame channelId .keyRotation bytes).encode
    toSender := s.acks.map fun _ => (plainFrame channelId .keyRotationAck []).encode
    received := s.received }

variable {channelId} {s s' : RotationLink} {a : LinkAction}

variable (channelId) in
/-- The constructor builds the frame if the payload fits. -/
theorem new_plainFrame {payload : List UInt8} (frameType : FrameType)
    (hfits : payload.length ≤ maxPayloadSize) :
    BindFrame.new frameType channelId 0 none none payload =
      .ok (plainFrame channelId frameType payload) :=
  BindFrame.new_eq_ok_iff.2 ⟨hfits, nofun, rfl⟩

/-- It is parsed from its bytes. -/
theorem decode_plainFrame {payload : List UInt8} (b : UInt8)
    (hfits : payload.length ≤ maxPayloadSize) :
    BindFrame.decode (plainFrame channelId (FrameType.fromByte b) payload).encode =
      .ok (plainFrame channelId (FrameType.fromByte b) payload) := by
  have hannounced := (BindFrame.wellFormed_of_new (new_plainFrame channelId
    (FrameType.fromByte b) hfits)).announced
  have hdecode := BindFrame.decode_encode_append hannounced ⟨b, rfl⟩ []
  rwa [List.append_nil] at hdecode

theorem transmit_of_fits (w : RotationWire) {payload : KeyRotationPayload}
    (hfits : payload.encode.length ≤ maxPayloadSize) :
    w.transmit channelId payload =
      { w with
        toReceiver :=
          w.toReceiver ++ [(plainFrame channelId .keyRotation payload.encode).encode] } := by
  rw [transmit, new_plainFrame channelId .keyRotation hfits]

theorem acknowledge_eq (w : RotationWire) :
    w.acknowledge channelId =
      { w with toSender := w.toSender ++ [(plainFrame channelId .keyRotationAck []).encode] } := by
  rw [acknowledge, BindFrame.newV1, new_plainFrame channelId .keyRotationAck (Nat.zero_le _)]

/-- The receiver gets a KEY_ROTATION frame. -/
theorem receive_plainFrame (w : RotationWire) {bytes : List UInt8}
    (hfits : bytes.length ≤ maxPayloadSize) :
    w.receive channelId (plainFrame channelId .keyRotation bytes).encode =
      match KeyRotationPayload.decode bytes with
      | .ok payload => { w with received := w.received ++ [payload] }.acknowledge channelId
      | .error _ => w := by
  rw [receive, show FrameType.keyRotation = FrameType.fromByte 0x07 from rfl,
    decode_plainFrame 0x07 hfits]
  rfl

/-- The sender gets a KEY_ROTATION_ACK frame. -/
theorem answer_plainFrame (w : RotationWire) :
    w.answer (plainFrame channelId .keyRotationAck []).encode =
      { w with machine := w.machine.handleAck.2 } := by
  rw [answer, show FrameType.keyRotationAck = FrameType.fromByte 0x08 from rfl,
    decode_plainFrame 0x08 (Nat.zero_le _)]
  rfl

/-! ### The payloads fit -/

/-- All payloads fit into a frame. -/
structure Fits (s : RotationLink) : Prop where
  pending : ∀ payload, s.machine.pendingPayload = some payload →
    payload.encode.length ≤ maxPayloadSize
  frames : ∀ bytes ∈ s.frames, bytes.length ≤ maxPayloadSize

theorem fits_init : Fits RotationLink.init where
  pending _ h := nomatch h
  frames _ h := nomatch h

/-- The action begins no rotation with a payload that does not fit. -/
def StartFits : LinkAction → Prop
  | .start payload => payload.encode.length ≤ maxPayloadSize
  | _ => True

instance (a : LinkAction) : Decidable (StartFits a) :=
  match a with
  | .start _ => inferInstanceAs (Decidable (_ ≤ _))
  | .timeout | .complete | .reset | .deliverFrame _ | .loseFrame _ | .deliverAck _ | .loseAck _ =>
      isTrue trivial

theorem Fits.frames_concat (h : Fits s) {bytes : List UInt8}
    (hbytes : bytes.length ≤ maxPayloadSize) :
    ∀ bs ∈ s.frames ++ [bytes], bs.length ≤ maxPayloadSize := by
  intro bs hbs
  rcases List.mem_append.1 hbs with hbs | hbs
  · exact h.frames bs hbs
  · rw [List.mem_singleton.1 hbs]
    exact hbytes

theorem Fits.step (h : Fits s) (ha : StartFits a) (hstep : s.step a = some s') : Fits s' := by
  cases RotationLink.step_cases hstep with
  | started payload =>
      refine ⟨fun p hp => ?_, h.frames_concat ha⟩
      rw [← Option.some.inj hp]
      exact ha
  | repeated machine sent hmove hsent =>
      exact ⟨fun p hp => h.pending p (RotationLink.pendingPayload_of_move hmove (by simp) hp),
        h.frames_concat (h.pending sent hsent)⟩
  | moved _ op machine hmove hop =>
      exact ⟨fun p hp => h.pending p (RotationLink.pendingPayload_of_move hmove hop hp), h.frames⟩
  | received | frameLost =>
      exact ⟨h.pending, fun bs hbs => h.frames bs (List.mem_of_mem_eraseIdx hbs)⟩
  | acked =>
      have hmove : RotationMove s.machine .handleAck s.machine.handleAck.2 :=
        KeyRotationStateMachine.apply_cases rfl
      exact ⟨fun p hp => h.pending p (RotationLink.pendingPayload_of_move hmove (by simp) hp),
        h.frames⟩
  | ackLost => exact ⟨h.pending, h.frames⟩

/-! ### One step -/

theorem ofLink_sent (s : RotationLink) (machine : KeyRotationStateMachine)
    {payload : KeyRotationPayload} (hfits : payload.encode.length ≤ maxPayloadSize) :
    { ofLink channelId s with machine }.transmit channelId payload =
      ofLink channelId { s with machine, frames := s.frames ++ [payload.encode] } := by
  rw [transmit_of_fits _ hfits, ofLink, ofLink]
  dsimp only
  rw [List.map_append, List.map_singleton]

/-- The delivery of a frame. -/
theorem step_ofLink_deliverFrame (h : Fits s) (i : ℕ) :
    step channelId (ofLink channelId s) (.deliverFrame i) =
      (s.step (.deliverFrame i)).map (ofLink channelId) := by
  rw [step, RotationLink.step, ofLink]
  dsimp only
  rw [List.getElem?_map]
  cases hget : s.frames[i]? with
  | none => rfl
  | some bytes =>
      dsimp only
      rw [Option.map_some, Option.map_some, receive_plainFrame _
        (h.frames bytes (List.mem_of_getElem? hget))]
      cases KeyRotationPayload.decode bytes with
      | error e =>
          dsimp only
          rw [Option.map_some, ofLink, List.eraseIdx_map]
      | ok payload =>
          dsimp only
          rw [Option.map_some, acknowledge_eq, ofLink, List.eraseIdx_map]
          dsimp only
          rw [List.map_append, List.map_singleton]

/-- **One step with frames is the image of one step with messages.** -/
theorem step_ofLink (h : Fits s) (ha : StartFits a) :
    step channelId (ofLink channelId s) a = (s.step a).map (ofLink channelId) := by
  cases a with
  | start payload =>
      have hmachine : (ofLink channelId s).machine = s.machine := rfl
      rw [step, RotationLink.step, hmachine, KeyRotationStateMachine.startRotation]
      by_cases hidle : s.machine.state = .idle
      · rw [if_neg (not_not.2 hidle)]
        dsimp only
        rw [ofLink_sent s _ ha]
        rfl
      · rw [if_pos hidle]
        rfl
  | timeout =>
      have hmachine : (ofLink channelId s).machine = s.machine := rfl
      rw [step, RotationLink.step, hmachine]
      cases htimeout : s.machine.handleTimeout with
      | none => rfl
      | some answer =>
          obtain ⟨result, machine⟩ := answer
          cases result with
          | retry sent =>
              have hsent := KeyRotationStateMachine.pendingPayload_of_retry htimeout
              dsimp only
              rw [ofLink_sent s machine (h.pending sent hsent)]
              rfl
          | failed | ignored => rfl
  | complete | reset => rfl
  | deliverFrame i => exact step_ofLink_deliverFrame h i
  | loseFrame i =>
      rw [step, RotationLink.step, Option.map_some, ofLink, ofLink]
      dsimp only
      rw [List.eraseIdx_map]
  | deliverAck i =>
      rw [step, RotationLink.step, ofLink]
      dsimp only
      rw [List.getElem?_map]
      cases s.acks[i]? with
      | none => rfl
      | some payload =>
          dsimp only
          rw [Option.map_some, Option.map_some, Option.map_some, answer_plainFrame, ofLink,
            List.eraseIdx_map]
  | loseAck i =>
      rw [step, RotationLink.step, Option.map_some, ofLink, ofLink]
      dsimp only
      rw [List.eraseIdx_map]

/-- A payload that does not fit is not sent, and the state machine waits for the answer. -/
theorem step_start_of_not_fits (w : RotationWire) {payload : KeyRotationPayload}
    (hidle : w.machine.state = .idle) (hlong : maxPayloadSize < payload.encode.length) :
    w.step channelId (.start payload) =
      some { w with machine := { state := .pending 0, pendingPayload := some payload } } := by
  have hnew : BindFrame.new .keyRotation channelId 0 none none payload.encode =
      .error .bufferOverflow := if_pos hlong
  rw [step, KeyRotationStateMachine.startRotation, if_neg (not_not.2 hidle)]
  dsimp only
  rw [transmit, hnew]

/-- **A run with frames is the image of the run with messages.**  As long as the payloads of the
rotations begun fit into a frame, the two parties that exchange frames can do exactly what they can
do when they exchange payloads and ACKs: the same sequences of actions are possible, and each leads
to the same state of the sender, with the same payloads received and with the frames under way that
carry the messages under way. -/
theorem run_ofLink (channelId : UInt8) (actions : List LinkAction)
    (hfits : ∀ a ∈ actions, StartFits a) :
    Runs.run (step channelId) init actions =
      (Runs.run RotationLink.step RotationLink.init actions).map (ofLink channelId) :=
  Runs.run_map (fun _ _ _ h ha hstep => h.step ha hstep) (fun _ _ h ha => step_ofLink h ha)
    fits_init hfits

/-- A rotation whose frame is sent twice. -/
theorem run_ofLink_repeatedRotation :
    Runs.run (step 1) init RotationLink.repeatedRotation =
      (Runs.run RotationLink.step RotationLink.init RotationLink.repeatedRotation).map
        (ofLink 1) :=
  run_ofLink 1 RotationLink.repeatedRotation (by decide)

end RotationWire

end Bind19
