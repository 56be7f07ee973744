/-
**Key rotation over a whole run.**

The state machine stores a state, a retry counter and a payload.  What it is meant to do is said of
the calls made so far: data is held back exactly when the rotation begun last has timed out too
often and neither an ACK nor a reset has come since, and what is sent again is the payload of that
rotation.  This module keeps the calls and their answers as a history beside the machine and proves
that the stored fields always agree with it.

Calls that are refused or ignored are part of the history like any others.  A timeout that comes
after the machine has given up counts as a timeout; it is the condition on ACKs and resets that
keeps it from mattering.

Main definitions:

* `Bind19.RotationEvent`, `Bind19.KeyRotationStateMachine.call` — a call with its answer;
* `Bind19.RotationEvent.sinceStart`, `Bind19.RotationEvent.lastStarted` — the part of the history
  that belongs to the current rotation, and the payload of that rotation;
* `Bind19.RotationTracked` — the stored fields agree with the history;
* `Bind19.RotationHistory` — the machine and the calls made so far.

Main results:

* `Bind19.KeyRotationStateMachine.call_cases` — **what a call can do**;
* `Bind19.RotationTracked.call`, `Bind19.RotationHistory.run_tracked` — one call and a whole run
  keep the fields in step with the history;
* `Bind19.RotationHistory.run_failClosed` — **when data is held back, and how often a payload is
  sent**;
* `Bind19.RotationHistory.run_payload_inStep` — **the stored payload is the one of the current
  rotation**.
-/

import Bind19.Rotation
import Bind19.Runs
import Mathlib.Data.List.DropRight

set_option relaxedAutoImplicit false
set_option autoImplicit false

namespace Bind19

/-! ### Calls and their answers -/

/-- A call and what it answered. -/
inductive RotationEvent
  | started (payload : KeyRotationPayload)
  | acked
  | retried (payload : KeyRotationPayload)
  | gaveUp
  | ignored
  | reset
  | completed
  | refused (op : RotationOp) (error : RotationError)
  deriving DecidableEq

namespace RotationEvent

/-- The call. -/
def op : RotationEvent → RotationOp
  | started payload => .startRotation payload
  | acked => .handleAck
  | retried _ => .handleTimeout
  | gaveUp => .handleTimeout
  | ignored => .handleTimeout
  | reset => .manualReset
  | completed => .completeRotation
  | refused op _ => op

/-- The payload of the rotation that the call began. -/
def startedPayload : RotationEvent → Option KeyRotationPayload
  | started payload => some payload
  | _ => none

/-- A rotation was begun. -/
def isStarted (e : RotationEvent) : Bool := e.startedPayload.isSome

/-- An ACK was accepted, or a reset. -/
def isSettled : RotationEvent → Bool
  | acked => true
  | reset => true
  | _ => false

/-- A timeout was reported. -/
def isTimeout (e : RotationEvent) : Bool := e.op == .handleTimeout

/-- A payload was handed out once more. -/
def isRetried : RotationEvent → Bool
  | retried _ => true
  | _ => false

/-- The call answered with an error, or that it was ignored. -/
def isRefusal : RotationEvent → Bool
  | refused _ _ => true
  | ignored => true
  | _ => false

/-- What happened since a rotation was begun last. -/
def sinceStart (events : List RotationEvent) : List RotationEvent :=
  events.rtakeWhile fun e => !e.isStarted

/-- The payload of the rotation begun last. -/
def lastStarted (events : List RotationEvent) : Option KeyRotationPayload :=
  (events.filterMap startedPayload).getLast?

end RotationEvent

namespace KeyRotationStateMachine

/-- One call, its answer, and the machine afterwards, unless it panics. -/
def call (m : KeyRotationStateMachine) :
    RotationOp → Option (RotationEvent × KeyRotationStateMachine)
  | .startRotation payload =>
      match m.startRotation payload with
      | (.ok sent, m') => some (.started sent, m')
      | (.error e, m') => some (.refused (.startRotation payload) e, m')
  | .handleAck =>
      match m.handleAck with
      | (.ok _, m') => some (.acked, m')
      | (.error e, m') => some (.refused .handleAck e, m')
  | .handleTimeout =>
      match m.handleTimeout with
      | none => none
      | some (.retry payload, m') => some (.retried payload, m')
      | some (.failed, m') => some (.gaveUp, m')
      | some (.ignored, m') => some (.ignored, m')
  | .manualReset =>
      match m.manualReset with
      | (.ok _, m') => some (.reset, m')
      | (.error e, m') => some (.refused .manualReset e, m')
  | .completeRotation =>
      match m.completeRotation with
      | (.ok _, m') => some (.completed, m')
      | (.error e, m') => some (.refused .completeRotation e, m')

end KeyRotationStateMachine

/-- What a call can do. -/
inductive RotationCall (m : KeyRotationStateMachine) :
    RotationOp → RotationEvent → KeyRotationStateMachine → Prop
  /-- Everything but a timeout can be refused. -/
  | refused (op : RotationOp) (error : RotationError) (hop : op ≠ .handleTimeout) :
      RotationCall m op (.refused op error) m
  | ignored (hfrom : ∀ retries, m.state ≠ .pending retries) :
      RotationCall m .handleTimeout .ignored m
  | started (payload : KeyRotationPayload) (hfrom : m.state = .idle) :
      RotationCall m (.startRotation payload) (.started payload)
        { state := .pending 0, pendingPayload := some payload }
  | acked (retries : UInt8) (hfrom : m.state = .pending retries) :
      RotationCall m .handleAck .acked { state := .rotated, pendingPayload := none }
  | retried (retries : UInt8) (payload : KeyRotationPayload) (hfrom : m.state = .pending retries)
      (hlt : retries < maxRetries) (hpayload : m.pendingPayload = some payload) :
      RotationCall m .handleTimeout (.retried payload) { m with state := .pending (retries + 1) }
  | gaveUp (retries : UInt8) (hfrom : m.state = .pending retries) (hge : ¬ retries < maxRetries) :
      RotationCall m .handleTimeout .gaveUp { state := .failed, pendingPayload := none }
  | reset (hfrom : m.state = .failed) :
      RotationCall m .manualReset .reset { state := .idle, pendingPayload := none }
  | completed (hfrom : m.state = .rotated) :
      RotationCall m .completeRotation .completed { m with state := .idle }

/-- The answer is on the record with its call. -/
theorem RotationCall.op_eq {m m' : KeyRotationStateMachine} {op : RotationOp} {e : RotationEvent}
    (h : RotationCall m op e m') : e.op = op := by
  cases h <;> rfl

/-- What is refused or ignored changes nothing. -/
theorem RotationCall.eq_of_isRefusal {m m' : KeyRotationStateMachine} {op : RotationOp}
    {e : RotationEvent} (h : RotationCall m op e m') (he : e.isRefusal = true) : m' = m := by
  cases h with
  | refused | ignored => rfl
  | started | acked | retried | gaveUp | reset | completed => cases he

namespace KeyRotationStateMachine

variable {m m' : KeyRotationStateMachine} {op : RotationOp} {e : RotationEvent}

/-- **What a call can do.** -/
theorem call_cases (h : m.call op = some (e, m')) : RotationCall m op e m' := by
  cases op with
  | startRotation payload =>
      rw [call, startRotation] at h
      by_cases hidle : m.state = .idle
      · rw [if_neg (not_not.2 hidle)] at h
        cases h
        exact .started payload hidle
      · rw [if_pos hidle] at h
        cases h
        exact .refused _ _ (by simp)
  | handleAck =>
      rw [call, handleAck] at h
      cases hstate : m.state with
      | pending retries =>
          rw [hstate] at h
          cases h
          exact .acked retries hstate
      | idle | rotated | failed =>
          rw [hstate] at h
          cases h
          exact .refused _ _ (by simp)
  | handleTimeout =>
      rw [call, handleTimeout] at h
      cases hstate : m.state with
      | pending retries =>
          rw [hstate] at h
          by_cases hlt : retries < maxRetries
          · cases hpayload : m.pendingPayload with
            | none => simp [hlt, hpayload] at h
            | some payload =>
                simp only [if_pos hlt, hpayload, Option.some.injEq, Prod.mk.injEq] at h
                obtain ⟨rfl, rfl⟩ := h
                rw [← hpayload]
                exact .retried retries payload hstate hlt hpayload
          · simp only [if_neg hlt, Option.some.injEq, Prod.mk.injEq] at h
            obtain ⟨rfl, rfl⟩ := h
            exact .gaveUp retries hstate hlt
      | idle | rotated | failed =>
          rw [hstate] at h
          cases h
          exact .ignored (by simp [hstate])
  | manualReset =>
      rw [call, manualReset] at h
      cases hstate : m.state with
      | failed =>
          rw [hstate] at h
          cases h
          exact .reset hstate
      | idle | pending | rotated =>
          rw [hstate] at h
          cases h
          exact .refused _ _ (by simp)
  | completeRotation =>
      rw [call, completeRotation] at h
      cases hstate : m.state with
      | rotated =>
          rw [hstate] at h
          cases h
          exact .completed hstate
      | idle | pending | failed =>
          rw [hstate] at h
          cases h
          exact .refused _ _ (by simp)

end KeyRotationStateMachine

/-! ### The history beside the machine -/

namespace RotationEvent

variable {events : List RotationEvent} {e : RotationEvent} {payload : KeyRotationPayload}

theorem sinceStart_concat (h : e.isStarted = false) :
    sinceStart (events ++ [e]) = sinceStart events ++ [e] :=
  List.rtakeWhile_concat_pos _ _ _ (by simp [h])

theorem sinceStart_concat_started : sinceStart (events ++ [started payload]) = [] :=
  List.rtakeWhile_concat_neg _ _ _ (by simp [isStarted, startedPayload])

theorem lastStarted_concat (h : e.isStarted = false) :
    lastStarted (events ++ [e]) = lastStarted events := by
  have hnone : e.startedPayload = none := by simpa [isStarted] using h
  simp [lastStarted, hnone]

theorem lastStarted_concat_started :
    lastStarted (events ++ [started payload]) = some payload := by
  simp [lastStarted, startedPayload]

/-- The rotation that a stretch of the history belongs to. -/
theorem sinceStart_of_stretch (pre : List RotationEvent) (payload : KeyRotationPayload)
    {mid : List RotationEvent} (hmid : ∀ e ∈ mid, e.isStarted = false) :
    sinceStart (pre ++ started payload :: mid) = mid ∧
      lastStarted (pre ++ started payload :: mid) = some payload := by
  induction mid using List.reverseRecOn with
  | nil => exact ⟨sinceStart_concat_started, lastStarted_concat_started⟩
  | append_singleton mid e ih =>
      have he : e.isStarted = false := hmid e (by simp)
      obtain ⟨hsince, hlast⟩ := ih fun e' he' => hmid e' (by simp [he'])
      rw [← List.cons_append, ← List.append_assoc, sinceStart_concat he, lastStarted_concat he,
        hsince]
      exact ⟨rfl, hlast⟩

end RotationEvent

open RotationEvent

/-- The stored fields agree with the history: with the payload of the rotation begun last, and with
what has happened since. -/
structure RotationTracked (m : KeyRotationStateMachine) (last : Option KeyRotationPayload)
    (since : List RotationEvent) : Prop where
  /-- While a rotation is pending, its payload is stored and its timeouts are counted. -/
  pending : ∀ retries, m.state = .pending retries →
    m.pendingPayload = last ∧ last.isSome ∧ (∀ e ∈ since, e.isSettled = false) ∧
      since.countP isTimeout = retries.toNat ∧ since.countP isRetried = retries.toNat ∧
      retries ≤ maxRetries
  /-- Nothing is stored otherwise. -/
  cleared : (∀ retries, m.state ≠ .pending retries) → m.pendingPayload = none
  /-- Failing takes one timeout more than there are retries. -/
  failed : m.state = .failed →
    last.isSome ∧ (∀ e ∈ since, e.isSettled = false) ∧
      maxRetries.toNat + 1 ≤ since.countP isTimeout
  /-- Otherwise the last rotation, if there was one, is settled. -/
  settled : m.state = .idle ∨ m.state = .rotated → last = none ∨ ∃ e ∈ since, e.isSettled = true
  retried : since.countP isRetried ≤ maxRetries.toNat
  repeated : ∀ payload, .retried payload ∈ since → last = some payload

namespace RotationTracked

variable {m m' : KeyRotationStateMachine} {last : Option KeyRotationPayload}
  {since events : List RotationEvent} {op : RotationOp} {e : RotationEvent}

theorem new : RotationTracked .new none [] where
  pending _ hstate := by cases hstate
  cleared _ := rfl
  failed hstate := by cases hstate
  settled _ := Or.inl rfl
  retried := by decide
  repeated _ hmem := by cases hmem

/-- A rotation has just been begun. -/
theorem started (payload : KeyRotationPayload) :
    RotationTracked { state := .pending 0, pendingPayload := some payload } (some payload) [] where
  pending retries hstate := by
    cases hstate
    exact ⟨rfl, rfl, by simp, rfl, rfl, by decide⟩
  cleared hstate := absurd rfl (hstate 0)
  failed hstate := by cases hstate
  settled hstate := by simp at hstate
  retried := by decide
  repeated _ hmem := by cases hmem

/-- What leaves the machine alone does not disturb the count, unless it is a timeout of a pending
rotation. -/
theorem unchanged (h : RotationTracked m last since) (hsettled : e.isSettled = false)
    (hretried : e.isRetried = false)
    (htimeout : ∀ retries, m.state = .pending retries → e.isTimeout = false) :
    RotationTracked m last (since ++ [e]) where
  pending retries hstate := by
    obtain ⟨hpayload, hsome, hopen, htimeouts, hretries, hle⟩ := h.pending retries hstate
    refine ⟨hpayload, hsome, ?_, ?_, ?_, hle⟩
    · simpa [hsettled, or_imp, forall_and] using hopen
    · simpa [htimeout retries hstate] using htimeouts
    · simpa [hretried] using hretries
  cleared := h.cleared
  failed hstate := by
    obtain ⟨hsome, hopen, hcount⟩ := h.failed hstate
    refine ⟨hsome, ?_, ?_⟩
    · simpa [hsettled, or_imp, forall_and] using hopen
    · rw [List.countP_append]
      omega
  settled hstate := (h.settled hstate).imp_right fun ⟨e', he', hset⟩ => ⟨e', by simp [he'], hset⟩
  retried := by simpa [hretried] using h.retried
  repeated payload hmem := by
    rw [List.mem_append, List.mem_singleton] at hmem
    rcases hmem with hmem | rfl
    · exact h.repeated payload hmem
    · cases hretried

/-- Once the rotation is settled, nothing is stored and data may be sent. -/
theorem settle (h : RotationTracked m last since) (hsettled : e.isSettled = true)
    (hstate : m'.state = .idle ∨ m'.state = .rotated) (hpayload : m'.pendingPayload = none) :
    RotationTracked m' last (since ++ [e]) where
  pending retries hpending := by simp [hpending] at hstate
  cleared _ := hpayload
  failed hfailed := by simp [hfailed] at hstate
  settled _ := Or.inr ⟨e, by simp, hsettled⟩
  retried := by
    cases e with
    | retried payload => cases hsettled
    | _ => simpa [isRetried] using h.retried
  repeated payload hmem := by
    rw [List.mem_append, List.mem_singleton] at hmem
    rcases hmem with hmem | rfl
    · exact h.repeated payload hmem
    · cases hsettled

/-- A timeout that is answered with another retry. -/
theorem retry {retries : UInt8} {payload : KeyRotationPayload} (h : RotationTracked m last since)
    (hfrom : m.state = .pending retries) (hlt : retries < maxRetries)
    (hpayload : m.pendingPayload = some payload) :
    RotationTracked { m with state := .pending (retries + 1) } last
      (since ++ [.retried payload]) := by
  obtain ⟨hstored, hsome, hopen, htimeouts, hretries, -⟩ := h.pending retries hfrom
  have hsucc : (retries + 1).toNat = retries.toNat + 1 := by
    rw [maxRetries, UInt8.lt_iff_toNat_lt] at hlt
    simp at hlt ⊢
    omega
  have hle : retries.toNat + 1 ≤ maxRetries.toNat := UInt8.lt_iff_toNat_lt.1 hlt
  refine ⟨?_, ?_, ?_, ?_, ?_, ?_⟩
  · rintro r hr
    obtain rfl : retries + 1 = r := by simpa using hr
    refine ⟨hstored, hsome, ?_, ?_, ?_, ?_⟩
    · simpa [isSettled, or_imp, forall_and] using hopen
    · simp [isTimeout, RotationEvent.op, htimeouts, hsucc]
    · simp [isRetried, hretries, hsucc]
    · rw [UInt8.le_iff_toNat_le, hsucc]
      exact hle
  · intro hstate
    exact absurd rfl (hstate (retries + 1))
  · intro hstate
    cases hstate
  · intro hstate
    simp at hstate
  · simpa [isRetried, hretries] using hle
  · intro p hmem
    rw [List.mem_append, List.mem_singleton] at hmem
    rcases hmem with hmem | hmem
    · exact h.repeated p hmem
    · cases hmem
      exact hstored.symm.trans hpayload

/-- The timeout after the last retry. -/
theorem giveUp {retries : UInt8} (h : RotationTracked m last since)
    (hfrom : m.state = .pending retries) (hge : ¬ retries < maxRetries) :
    RotationTracked { state := .failed, pendingPayload := none } last (since ++ [.gaveUp]) := by
  obtain ⟨-, hsome, hopen, htimeouts, hretries, -⟩ := h.pending retries hfrom
  have hle : maxRetries.toNat ≤ retries.toNat := UInt8.le_iff_toNat_le.1 (UInt8.not_lt.1 hge)
  refine ⟨?_, ?_, ?_, ?_, ?_, ?_⟩
  · intro r hr
    cases hr
  · intro _
    rfl
  · intro _
    refine ⟨hsome, ?_, ?_⟩
    · simpa [isSettled, or_imp, forall_and] using hopen
    · simp [isTimeout, RotationEvent.op, htimeouts, hle]
  · intro hstate
    simp at hstate
  · simpa [isRetried] using h.retried
  · intro p hmem
    exact h.repeated p (by simpa using hmem)

/-- A rotation that was settled is still settled when it is complete. -/
theorem complete (h : RotationTracked m last since) (hfrom : m.state = .rotated) :
    RotationTracked { m with state := .idle } last (since ++ [.completed]) where
  pending _ hstate := by cases hstate
  cleared _ := h.cleared (by simp [hfrom])
  failed hstate := by cases hstate
  settled _ := (h.settled (Or.inr hfrom)).imp_right
    fun ⟨e', he', hset⟩ => ⟨e', by simp [he'], hset⟩
  retried := by simpa [isRetried] using h.retried
  repeated p hmem := h.repeated p (by simpa using hmem)

/-- **What one call preserves.** -/
theorem call (h : RotationTracked m (lastStarted events) (sinceStart events))
    (hcall : RotationCall m op e m') :
    RotationTracked m' (lastStarted (events ++ [e])) (sinceStart (events ++ [e])) := by
  cases hcall with
  | started payload hfrom =>
      rw [lastStarted_concat_started, sinceStart_concat_started]
      exact started payload
  | refused op error hop =>
      rw [lastStarted_concat rfl, sinceStart_concat rfl]
      exact h.unchanged rfl rfl fun _ _ => by simpa [isTimeout, RotationEvent.op] using hop
  | ignored hfrom =>
      rw [lastStarted_concat rfl, sinceStart_concat rfl]
      exact h.unchanged rfl rfl fun retries hstate => absurd hstate (hfrom retries)
  | acked retries hfrom =>
      rw [lastStarted_concat rfl, sinceStart_concat rfl]
      exact h.settle rfl (Or.inr rfl) rfl
  | retried retries payload hfrom hlt hpayload =>
      rw [lastStarted_concat rfl, sinceStart_concat rfl]
      exact h.retry hfrom hlt hpayload
  | gaveUp retries hfrom hge =>
      rw [lastStarted_concat rfl, sinceStart_concat rfl]
      exact h.giveUp hfrom hge
  | reset hfrom =>
      rw [lastStarted_concat rfl, sinceStart_concat rfl]
      exact h.settle rfl (Or.inl rfl) rfl
  | completed hfrom =>
      rw [lastStarted_concat rfl, sinceStart_concat rfl]
      exact h.complete hfrom

end RotationTracked

/-! ### Runs -/

/-- A key rotation state machine and the calls made so far. -/
structure RotationHistory where
  machine : KeyRotationStateMachine
  events : List RotationEvent

namespace RotationHistory

/-- No call so far. -/
def init : RotationHistory := { machine := .new, events := [] }

/-- One call, unless it panics. -/
def step (h : RotationHistory) (op : RotationOp) : Option RotationHistory :=
  (h.machine.call op).map fun answer =>
    { machine := answer.2, events := h.events ++ [answer.1] }

variable {h h' : RotationHistory} {op : RotationOp}

theorem step_cases (hstep : h.step op = some h') :
    ∃ e, RotationCall h.machine op e h'.machine ∧ h'.events = h.events ++ [e] := by
  rw [step, Option.map_eq_some_iff] at hstep
  obtain ⟨⟨e, m'⟩, hcall, rfl⟩ := hstep
  exact ⟨e, KeyRotationStateMachine.call_cases hcall, rfl⟩

/-- The stored fields agree with the history, and agreed at every moment of it. -/
structure Tracked (h : RotationHistory) : Prop where
  now : RotationTracked h.machine (lastStarted h.events) (sinceStart h.events)
  always : ∀ pre, pre <+: h.events →
    ∃ m, RotationTracked m (lastStarted pre) (sinceStart pre)

theorem tracked_init : init.Tracked where
  now := .new
  always pre hpre := by
    obtain rfl := List.prefix_nil.1 hpre
    exact ⟨.new, .new⟩

/-- **What one step preserves.** -/
theorem Tracked.step (ht : h.Tracked) (hstep : h.step op = some h') : h'.Tracked := by
  obtain ⟨e, hcall, hevents⟩ := step_cases hstep
  have hnow : RotationTracked h'.machine (lastStarted h'.events) (sinceStart h'.events) := by
    rw [hevents]
    exact ht.now.call hcall
  refine ⟨hnow, fun pre hpre => ?_⟩
  rw [hevents, List.prefix_concat_iff] at hpre
  rcases hpre with rfl | hpre
  · exact ⟨h'.machine, hevents ▸ hnow⟩
  · exact ht.always pre hpre

/-- The machine never panics: a payload that it has to repeat is there. -/
theorem Tracked.step_isSome (ht : h.Tracked) (op : RotationOp) : (h.step op).isSome := by
  rw [RotationHistory.step, Option.isSome_map]
  cases op with
  | handleTimeout =>
      rw [KeyRotationStateMachine.call, KeyRotationStateMachine.handleTimeout]
      cases hstate : h.machine.state with
      | pending retries =>
          obtain ⟨hpayload, hsome, -⟩ := ht.now.pending retries hstate
          obtain ⟨payload, hlast⟩ := Option.isSome_iff_exists.1 hsome
          rw [hpayload, hlast]
          by_cases hlt : retries < maxRetries
          · simp [hlt]
          · simp [hlt]
      | idle | rotated | failed => rfl
  | startRotation payload | handleAck | manualReset | completeRotation =>
      rw [KeyRotationStateMachine.call]
      split <;> rfl

/-- The calls of a run are on the record, in order. -/
theorem map_op_of_run {ops : List RotationOp} (hrun : Runs.run step h ops = some h') :
    h'.events.map RotationEvent.op = h.events.map RotationEvent.op ++ ops := by
  induction ops generalizing h with
  | nil =>
      obtain rfl := Option.some.inj hrun
      simp
  | cons op ops ih =>
      obtain ⟨h₁, hstep, hrun⟩ := (Runs.run_cons_eq_some_iff step).1 hrun
      obtain ⟨e, hcall, hevents⟩ := step_cases hstep
      rw [ih hrun, hevents, List.map_append, List.map_singleton, hcall.op_eq, List.append_assoc,
        List.singleton_append]

/-- **Every sequence of calls has a run**, and along it the fields agree with the history. -/
theorem run_tracked (ops : List RotationOp) :
    ∃ h, Runs.run step init ops = some h ∧ h.events.map RotationEvent.op = ops ∧ h.Tracked := by
  have hstep : ∀ h op h', Tracked h → step h op = some h' → Tracked h' :=
    fun _ _ _ ht hstep => ht.step hstep
  obtain ⟨h, hrun⟩ := Runs.exists_run hstep (fun _ op ht => ht.step_isSome op) tracked_init ops
  exact ⟨h, hrun, map_op_of_run hrun, Runs.invariant hstep tracked_init hrun⟩

/-- Data is held back exactly when the last rotation has timed out too often and is not settled. -/
theorem Tracked.canSendData_eq_false_iff (ht : h.Tracked) :
    h.machine.canSendData = false ↔
      (lastStarted h.events).isSome ∧
        maxRetries.toNat + 1 ≤ (sinceStart h.events).countP isTimeout ∧
        ∀ e ∈ sinceStart h.events, e.isSettled = false := by
  have hsend : h.machine.canSendData = false ↔ h.machine.state = .failed := by
    simp [KeyRotationStateMachine.canSendData]
  rw [hsend]
  constructor
  · intro hfailed
    obtain ⟨hsome, hopen, hcount⟩ := ht.now.failed hfailed
    exact ⟨hsome, hcount, hopen⟩
  · rintro ⟨hsome, hcount, hopen⟩
    have hsettled : ¬ (lastStarted h.events = none ∨
        ∃ e ∈ sinceStart h.events, e.isSettled = true) := by
      rintro (hnone | ⟨e, he, hset⟩)
      · rw [hnone] at hsome
        cases hsome
      · rw [hopen e he] at hset
        cases hset
    cases hstate : h.machine.state with
    | failed => rfl
    | idle => exact absurd (ht.now.settled (Or.inl hstate)) hsettled
    | rotated => exact absurd (ht.now.settled (Or.inr hstate)) hsettled
    | pending retries =>
        -- a rotation that is still pending has not timed out more often than it was repeated
        obtain ⟨-, -, -, htimeouts, -, hle⟩ := ht.now.pending retries hstate
        have hle : retries.toNat ≤ maxRetries.toNat := UInt8.le_iff_toNat_le.1 hle
        omega

/-- Only a reset makes it possible again to send data. -/
theorem manualReset_of_canSendData (hstep : h.step op = some h')
    (hbefore : h.machine.canSendData = false) (hafter : h'.machine.canSendData = true) :
    op = .manualReset := by
  obtain ⟨e, hcall, -⟩ := step_cases hstep
  have hfailed : h.machine.state = .failed := by
    simpa [KeyRotationStateMachine.canSendData] using hbefore
  generalize h'.machine = m' at hcall hafter
  cases hcall with
  | reset => rfl
  | refused | ignored =>
      rw [hbefore] at hafter
      cases hafter
  | started payload hfrom | acked retries hfrom | retried retries payload hfrom
  | gaveUp retries hfrom | completed hfrom =>
      rw [hfailed] at hfrom
      cases hfrom

/-- The payload of one rotation is handed out once more than it is repeated, at most. -/
theorem Tracked.handedOut_le (ht : h.Tracked) {pre mid post : List RotationEvent}
    {payload : KeyRotationPayload} (hevents : h.events = pre ++ .started payload :: mid ++ post)
    (hmid : ∀ e ∈ mid, e.isStarted = false) :
    1 + mid.countP isRetried ≤ maxRetries.toNat + 1 ∧
      ∀ repeated, .retried repeated ∈ mid → repeated = payload := by
  obtain ⟨m, htracked⟩ := ht.always (pre ++ .started payload :: mid) ⟨post, hevents.symm⟩
  obtain ⟨hsince, hlast⟩ := sinceStart_of_stretch pre payload hmid
  rw [hsince, hlast] at htracked
  refine ⟨?_, fun repeated hmem => ?_⟩
  · have hcount := htracked.retried
    omega
  · exact (Option.some.inj (htracked.repeated repeated hmem)).symm

/-- **When data is held back, and how often a payload is handed out.**  After any sequence of calls
to a new machine, data is held back if and only if a rotation has been begun and, since the last one
was, more timeouts were reported than a frame is repeated and neither an ACK nor a reset was
accepted.  Whatever call comes next, only a reset restores sending.  And between one rotation and
the next, the payload is handed out at most `maxRetries + 1` times, always the same. -/
theorem run_failClosed (ops : List RotationOp) :
    ∃ h, Runs.run step init ops = some h ∧ h.events.map RotationEvent.op = ops ∧
      (h.machine.canSendData = false ↔
        (lastStarted h.events).isSome ∧
          maxRetries.toNat + 1 ≤ (sinceStart h.events).countP isTimeout ∧
          ∀ e ∈ sinceStart h.events, e.isSettled = false) ∧
      (∀ op h', h.step op = some h' → h.machine.canSendData = false →
        h'.machine.canSendData = true → op = .manualReset) ∧
      ∀ pre payload mid post, h.events = pre ++ .started payload :: mid ++ post →
        (∀ e ∈ mid, e.isStarted = false) →
          1 + mid.countP isRetried ≤ maxRetries.toNat + 1 ∧
            ∀ repeated, .retried repeated ∈ mid → repeated = payload := by
  obtain ⟨h, hrun, hops, ht⟩ := run_tracked ops
  refine ⟨h, hrun, hops, ht.canSendData_eq_false_iff, ?_, ?_⟩
  · intro op h' hstep hbefore hafter
    exact manualReset_of_canSendData hstep hbefore hafter
  · intro pre payload mid post hevents hmid
    exact ht.handedOut_le hevents hmid

/-- A payload is stored exactly while a rotation is pending. -/
theorem Tracked.isSome_pendingPayload_iff (ht : h.Tracked) :
    h.machine.pendingPayload.isSome ↔ ∃ retries, h.machine.state = .pending retries := by
  constructor
  · intro hsome
    by_contra hstate
    rw [ht.now.cleared fun retries hpending => hstate ⟨retries, hpending⟩] at hsome
    cases hsome
  · rintro ⟨retries, hstate⟩
    obtain ⟨hpayload, hsome, -⟩ := ht.now.pending retries hstate
    rw [hpayload]
    exact hsome

/-- While a rotation is pending, its payload is stored and the retry counter can be increased. -/
theorem Tracked.pending_inStep (ht : h.Tracked) {retries : UInt8}
    (hstate : h.machine.state = .pending retries) :
    h.machine.pendingPayload = lastStarted h.events ∧ retries ≤ maxRetries ∧
      (retries + 1).toNat = retries.toNat + 1 := by
  obtain ⟨hpayload, -, -, -, -, hle⟩ := ht.now.pending retries hstate
  have hbound : retries.toNat ≤ 3 := UInt8.le_iff_toNat_le.1 hle
  have hsucc : (retries + 1).toNat = retries.toNat + 1 := by
    rw [UInt8.toNat_add]
    exact Nat.mod_eq_of_lt (by simp; omega)
  exact ⟨hpayload, hle, hsucc⟩

/-- The next call never panics, repeats the payload of the current rotation only, and changes
nothing when it is refused or ignored. -/
theorem Tracked.step_inStep (ht : h.Tracked) (op : RotationOp) :
    ∃ e h', h.step op = some h' ∧ h'.events = h.events ++ [e] ∧ e.op = op ∧
      (∀ payload, e = .retried payload → lastStarted h.events = some payload) ∧
      (e.isRefusal = true → h'.machine = h.machine) := by
  obtain ⟨h', hstep⟩ := Option.isSome_iff_exists.1 (ht.step_isSome op)
  obtain ⟨e, hcall, hevents⟩ := step_cases hstep
  refine ⟨e, h', hstep, hevents, hcall.op_eq, ?_, ?_⟩
  · rintro payload rfl
    have hrepeated := (ht.step hstep).now.repeated payload
    rw [hevents, sinceStart_concat rfl, lastStarted_concat rfl] at hrepeated
    exact hrepeated (by simp)
  · exact hcall.eq_of_isRefusal

/-- **The stored payload is the one of the current rotation.**  After any sequence of calls to a new
machine, a payload is stored exactly while a rotation is pending, and it is the payload of the
rotation begun last; the retry counter stays within its bound and does not wrap around.  The next
call never panics; what it hands out once more is that payload, and if it is refused or ignored, the
machine is as it was. -/
theorem run_payload_inStep (ops : List RotationOp) :
    ∃ h, Runs.run step init ops = some h ∧ h.events.map RotationEvent.op = ops ∧
      (h.machine.pendingPayload.isSome ↔ ∃ retries, h.machine.state = .pending retries) ∧
      (∀ retries, h.machine.state = .pending retries →
        h.machine.pendingPayload = lastStarted h.events ∧ retries ≤ maxRetries ∧
          (retries + 1).toNat = retries.toNat + 1) ∧
      ∀ op, ∃ e h', h.step op = some h' ∧ h'.events = h.events ++ [e] ∧ e.op = op ∧
        (∀ payload, e = .retried payload → lastStarted h.events = some payload) ∧
        (e.isRefusal = true → h'.machine = h.machine) := by
  obtain ⟨h, hrun, hops, ht⟩ := run_tracked ops
  exact ⟨h, hrun, hops, ht.isSome_pendingPayload_iff, fun _ hstate => ht.pending_inStep hstate,
    ht.step_inStep⟩

end RotationHistory

end Bind19
