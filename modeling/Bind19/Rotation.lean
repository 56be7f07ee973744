/-
**Key rotation.**

When the sequence counter comes near its end, the sender announces a new key in a KEY_ROTATION
frame and waits for a KEY_ROTATION_ACK.  Without one it repeats the frame a few times and then
stops sending data until it is reset by hand.  The state machine keeps the payload that it may have
to send again.

The operations that can refuse return their answer and the state machine; a refusal leaves it as it
is. The source unwraps the stored payload when it repeats it and would panic without one; that is
`none` here.

Main definitions:

* `Bind19.KeyRotationPayload` with `encode` and `decode`;
* `Bind19.KeyRotationStateMachine` with its operations;
* `Bind19.RotationOp`, `Bind19.KeyRotationStateMachine.apply` — one operation;
* `Bind19.RotationMove` — what an operation can do.

Main results:

* `Bind19.KeyRotationPayload.decode_encode` — a payload survives its encoding;
* `Bind19.KeyRotationStateMachine.apply_cases` — **what an operation can do**.
-/

import Bind19.ByteLayout

set_option relaxedAutoImplicit false
set_option autoImplicit false

namespace Bind19

open ByteLayout

/-- From this value of the sequence counter on the key has to be rotated. -/
def rotationThreshold : UInt16 := 65534

/-- How often a KEY_ROTATION frame is repeated. -/
def maxRetries : UInt8 := 3

/-- The size of the nonce in a KEY_ROTATION payload. -/
abbrev nonceSize : ℕ := 12

/-- What goes wrong in a key rotation. -/
inductive RotationError
  | payloadTooShort
  | notInIdleState
  | unexpectedAck
  | notInFailedState
  | notInRotatedState
  deriving DecidableEq, Repr

/-- The message of an error. -/
def RotationError.display : RotationError → String
  | payloadTooShort => "KEY_ROTATION payload too short (need " ++ toString nonceSize ++
      " bytes nonce)"
  | notInIdleState => "cannot start rotation: not in Idle state"
  | unexpectedAck => "unexpected ACK: not in Pending state"
  | notInFailedState => "cannot manual reset: not in Failed state"
  | notInRotatedState => "cannot complete rotation: not in Rotated state"

/-! ### Payloads -/

/-- The payload of a KEY_ROTATION frame. -/
structure KeyRotationPayload where
  nonce : Vector UInt8 nonceSize
  newKeyEncrypted : List UInt8
  deriving DecidableEq

namespace KeyRotationPayload

/-- The nonce, then the encrypted key. -/
def encode (p : KeyRotationPayload) : List UInt8 := p.nonce.toList ++ p.newKeyEncrypted

/-- The payload read from a byte string. -/
def decode (buf : List UInt8) : Except RotationError KeyRotationPayload :=
  if buf.length < nonceSize then .error .payloadTooShort
  else .ok { nonce := readArray nonceSize buf 0, newKeyEncrypted := buf.drop nonceSize }

/-- A payload survives its encoding. -/
theorem decode_encode (p : KeyRotationPayload) : decode p.encode = .ok p := by
  have hlen : ¬ p.encode.length < nonceSize := by simp [encode]
  have hnonce : readArray nonceSize p.encode 0 = p.nonce := by
    simpa [encode] using readArray_append [] p.nonce p.newKeyEncrypted
  have hkey : p.encode.drop nonceSize = p.newKeyEncrypted := by simp [encode]
  rw [decode, if_neg hlen, hnonce, hkey]

end KeyRotationPayload

/-! ### The state machine -/

/-- The state of a rotation. -/
inductive RotationState
  | idle
  | pending (retries : UInt8)
  | rotated
  | failed
  deriving DecidableEq, Repr

/-- What becomes of a timeout. -/
inductive TimeoutResult
  | retry (payload : KeyRotationPayload)
  | failed
  | ignored
  deriving DecidableEq

/-- The state of a rotation and the payload that may have to be sent again. -/
structure KeyRotationStateMachine where
  state : RotationState
  pendingPayload : Option KeyRotationPayload
  deriving DecidableEq

namespace KeyRotationStateMachine

/-- No rotation in progress. -/
def new : KeyRotationStateMachine := { state := .idle, pendingPayload := none }

/-- Whether the counter calls for a rotation.  Only an idle machine starts one. -/
def shouldRotate (m : KeyRotationStateMachine) (seqCounter : UInt16) : Bool :=
  m.state == .idle && decide (seqCounter ≥ rotationThreshold)

/-- Start a rotation: the payload to send. -/
def startRotation (m : KeyRotationStateMachine) (payload : KeyRotationPayload) :
    Except RotationError KeyRotationPayload × KeyRotationStateMachine :=
  if m.state ≠ .idle then (.error .notInIdleState, m)
  else (.ok payload, { state := .pending 0, pendingPayload := some payload })

/-- An ACK has arrived. -/
def handleAck (m : KeyRotationStateMachine) : Except RotationError Unit × KeyRotationStateMachine :=
  match m.state with
  | .pending _ => (.ok (), { state := .rotated, pendingPayload := none })
  | _ => (.error .unexpectedAck, m)

/-- No ACK has arrived in time. -/
def handleTimeout (m : KeyRotationStateMachine) :
    Option (TimeoutResult × KeyRotationStateMachine) :=
  match m.state with
  | .pending retries =>
      if retries < maxRetries then
        match m.pendingPayload with
        | none => none
        | some payload => some (.retry payload, { m with state := .pending (retries + 1) })
      else some (.failed, { state := .failed, pendingPayload := none })
  | _ => some (.ignored, m)

/-- Whether data frames may be sent. -/
def canSendData (m : KeyRotationStateMachine) : Bool := m.state != .failed

/-- Whether an ACK is awaited. -/
def isRotationPending (m : KeyRotationStateMachine) : Bool :=
  match m.state with
  | .pending _ => true
  | _ => false

/-- How often the frame has been repeated. -/
def retryCount (m : KeyRotationStateMachine) : UInt8 :=
  match m.state with
  | .pending retries => retries
  | _ => 0

/-- Reset by hand after a failure. -/
def manualReset (m : KeyRotationStateMachine) :
    Except RotationError Unit × KeyRotationStateMachine :=
  match m.state with
  | .failed => (.ok (), { state := .idle, pendingPayload := none })
  | _ => (.error .notInFailedState, m)

/-- The new key is in use: ready for the next rotation. -/
def completeRotation (m : KeyRotationStateMachine) :
    Except RotationError Unit × KeyRotationStateMachine :=
  match m.state with
  | .rotated => (.ok (), { m with state := .idle })
  | _ => (.error .notInRotatedState, m)

end KeyRotationStateMachine

/-! ### What an operation can do -/

/-- The operations that change the state machine. -/
inductive RotationOp
  | startRotation (payload : KeyRotationPayload)
  | handleAck
  | handleTimeout
  | manualReset
  | completeRotation
  deriving DecidableEq

/-- The state machine after one operation, unless it panics. -/
def KeyRotationStateMachine.apply (m : KeyRotationStateMachine) :
    RotationOp → Option KeyRotationStateMachine
  | .startRotation payload => some (m.startRotation payload).2
  | .handleAck => some m.handleAck.2
  | .handleTimeout => m.handleTimeout.map Prod.snd
  | .manualReset => some m.manualReset.2
  | .completeRotation => some m.completeRotation.2

/-- What an operation can do to the state machine. -/
inductive RotationMove (m : KeyRotationStateMachine) : RotationOp → KeyRotationStateMachine → Prop
  /-- It is refused, or ignored. -/
  | refused (op : RotationOp) : RotationMove m op m
  | started (payload : KeyRotationPayload) (hfrom : m.state = .idle) :
      RotationMove m (.startRotation payload)
        { state := .pending 0, pendingPayload := some payload }
  | acked (retries : UInt8) (hfrom : m.state = .pending retries) :
      RotationMove m .handleAck { state := .rotated, pendingPayload := none }
  | retried (retries : UInt8) (payload : KeyRotationPayload) (hfrom : m.state = .pending retries)
      (hlt : retries < maxRetries) (hpayload : m.pendingPayload = some payload) :
      RotationMove m .handleTimeout { m with state := .pending (retries + 1) }
  | gaveUp (retries : UInt8) (hfrom : m.state = .pending retries) (hge : ¬ retries < maxRetries) :
      RotationMove m .handleTimeout { state := .failed, pendingPayload := none }
  | reset (hfrom : m.state = .failed) :
      RotationMove m .manualReset { state := .idle, pendingPayload := none }
  | completed (hfrom : m.state = .rotated) :
      RotationMove m .completeRotation { m with state := .idle }

namespace KeyRotationStateMachine

/-- **What an operation can do.** -/
theorem apply_cases {m m' : KeyRotationStateMachine} {op : RotationOp}
    (h : m.apply op = some m') : RotationMove m op m' := by
  cases op with
  | startRotation payload =>
      obtain rfl := Option.some.inj h
      rw [startRotation]
      split
      · exact .refused _
      · rename_i hidle
        exact .started payload (not_not.1 hidle)
  | handleAck =>
      obtain rfl := Option.some.inj h
      rw [handleAck]
      cases hstate : m.state with
      | pending retries => exact .acked retries hstate
      | _ => exact .refused _
  | handleTimeout =>
      rw [apply, handleTimeout] at h
      cases hstate : m.state with
      | pending retries =>
          rw [hstate] at h
          dsimp only at h
          split at h
          · rename_i hlt
            cases hpayload : m.pendingPayload with
            | none =>
                rw [hpayload] at h
                cases h
            | some payload =>
                rw [hpayload] at h
                obtain rfl := Option.some.inj h
                rw [← hpayload]
                exact .retried retries payload hstate hlt hpayload
          · rename_i hge
            obtain rfl := Option.some.inj h
            exact .gaveUp retries hstate hge
      | _ =>
          rw [hstate] at h
          obtain rfl := Option.some.inj h
          exact .refused _
  | manualReset =>
      obtain rfl := Option.some.inj h
      rw [manualReset]
      cases hstate : m.state with
      | failed => exact .reset hstate
      | _ => exact .refused _
  | completeRotation =>
      obtain rfl := Option.some.inj h
      rw [completeRotation]
      cases hstate : m.state with
      | rotated => exact .completed hstate
      | _ => exact .refused _

/-- What a timeout sends again is what is pending. -/
theorem pendingPayload_of_retry {m m' : KeyRotationStateMachine} {payload : KeyRotationPayload}
    (h : m.handleTimeout = some (.retry payload, m')) : m.pendingPayload = some payload := by
  rw [handleTimeout] at h
  cases hstate : m.state with
  | pending retries =>
      rw [hstate] at h
      dsimp only at h
      split at h
      · cases hpayload : m.pendingPayload with
        | none =>
            rw [hpayload] at h
            cases h
        | some p =>
            rw [hpayload] at h
            cases h
            rfl
      · cases h
  | _ =>
      rw [hstate] at h
      cases h

end KeyRotationStateMachine

end Bind19
