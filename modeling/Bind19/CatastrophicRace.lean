/-
**Managers that handle frames at the same time.**

The clones of a manager share the channel of the event bus and the audit log, and any number of
threads handle frames on them.  Handling a frame that triggers the hard override touches what is
shared twice: the event is sent, and, with the lock of the audit log held, it is recorded.  Between
the two any other thread may run, and the receiver may take events or go away.

This module models these steps for any number of calls, in any order.  Beside the manager the model
keeps, as history, the events that the channel took, those that the receiver has taken from it, and
all entries that were ever recorded, those that the log has dropped since among them.

Main definitions:

* `Bind19.FramePhase`, `Bind19.FrameCall` — a call and how far it has come;
* `Bind19.FrameCall.tick` — its next atomic step;
* `Bind19.ManagerAction`, `Bind19.ManagerState.step` — one action of a caller or of the receiver;
* `Bind19.FrameStep` — what a step of a call can do.

Main results:

* `Bind19.FrameCall.tick_cases` — **what a step of a call can do**;
* `Bind19.FrameCall.run_alone` — a call that runs alone does what the sequential operation does.
-/

import Bind19.Catastrophic
import Bind19.Runs
import Bind19.Threads

set_option relaxedAutoImplicit false
set_option autoImplicit false

namespace Bind19

/-! ### Calls -/

/-- How far a call has come. -/
inductive FramePhase
  /-- It has not looked at the frame yet. -/
  | called
  /-- The frame triggers the hard override, and this is its event. -/
  | triggered (event : CatastrophicEvent)
  /-- The event was sent. -/
  | sent (event : CatastrophicEvent)
  /-- The event is recorded; the call has returned. -/
  | recorded (event : CatastrophicEvent)
  /-- The frame does not trigger; the call has returned. -/
  | ignored
  deriving DecidableEq

/-- A call that handles a frame, in progress or finished. -/
structure FrameCall where
  request : FrameRequest
  phase : FramePhase
  deriving DecidableEq

/-- What the calls share: the manager, and the histories. -/
structure ManagerShared where
  manager : CatastrophicManager
  sent : List CatastrophicEvent
  received : List CatastrophicEvent
  appended : List AuditEntry

/-- The manager and the calls on it and its clones. -/
abbrev ManagerState := Threads.State ManagerShared FrameCall

namespace ManagerShared

variable (sha256 : List UInt8 → Digest)

/-- An event is sent.  Whether that succeeds does not matter to the caller. -/
def send (g : ManagerShared) (event : CatastrophicEvent) : ManagerShared :=
  match g.manager.eventBus.send event with
  | (.ok (), eventBus) =>
      { g with manager := { g.manager with eventBus }, sent := g.sent ++ [event] }
  | (.error _, eventBus) => { g with manager := { g.manager with eventBus } }

theorem manager_send (g : ManagerShared) (event : CatastrophicEvent) :
    (g.send event).manager =
      { g.manager with eventBus := (g.manager.eventBus.send event).2 } := by
  unfold send CatastrophicEventBus.send
  cases g.manager.eventBus.receiverAlive <;> rfl

/-- An event is recorded. -/
def record (g : ManagerShared) (event : CatastrophicEvent) : ManagerShared :=
  { g with
    manager := { g.manager with auditLog := (g.manager.auditLog.append sha256 event).2 }
    appended := g.appended ++ [g.manager.auditLog.nextEntry sha256 event] }

end ManagerShared

namespace FrameCall

/-- A new call. -/
def start (request : FrameRequest) : FrameCall := { request, phase := .called }

/-- The call with another phase. -/
def goto (call : FrameCall) (phase : FramePhase) : FrameCall := { call with phase }

/-- What the call has returned. -/
def answer (call : FrameCall) : Option Bool :=
  match call.phase with
  | .recorded _ => some true
  | .ignored => some false
  | _ => none

/-- The event that the call has sent, or tried to send. -/
def sentEvent (call : FrameCall) : Option CatastrophicEvent :=
  match call.phase with
  | .sent event => some event
  | .recorded event => some event
  | _ => none

/-- The event that the call has recorded. -/
def recordedEvent (call : FrameCall) : Option CatastrophicEvent :=
  match call.phase with
  | .recorded event => some event
  | _ => none

variable (sha256 : List UInt8 → Digest)

/-- The next atomic step of a call. -/
def tick (s : ManagerState) (call : FrameCall) (clock : SystemTime) :
    Option (ManagerShared × FrameCall) :=
  let g := s.shared
  match call.phase with
  | .called =>
      if !CatastrophicManager.isCatastrophicOverride call.request.pfpBytes then
        some (g, call.goto .ignored)
      else some (g, call.goto (.triggered (CatastrophicEvent.new call.request clock)))
  | .triggered event => some (g.send event, call.goto (.sent event))
  | .sent event => some (g.record sha256 event, call.goto (.recorded event))
  | .recorded _ => none
  | .ignored => none

end FrameCall

/-! ### Actions -/

/-- A call begins or takes its next step, or the receiver takes an event or goes away. -/
inductive ManagerAction
  | call (action : Threads.Action FrameRequest SystemTime)
  | recv
  | dropReceiver

namespace ManagerState

/-- A new manager, before any call. -/
def init : ManagerState :=
  { shared := { manager := CatastrophicManager.new, sent := [], received := [], appended := [] }
    threads := [] }

/-- One action. -/
def step (sha256 : List UInt8 → Digest) (s : ManagerState) : ManagerAction → Option ManagerState
  | .call action => Threads.step FrameCall.start (FrameCall.tick sha256) s action
  | .recv =>
      match s.shared.manager.eventBus.recv with
      | none => none
      | some (event, eventBus) =>
          some { s with
            shared := { s.shared with
              manager := { s.shared.manager with eventBus }
              received := s.shared.received ++ [event] } }
  | .dropReceiver =>
      some { s with
        shared := { s.shared with
          manager := { s.shared.manager with
            eventBus := s.shared.manager.eventBus.dropReceiver } } }

end ManagerState

/-! ### What a step of a call can do -/

/-- What a step of `call` can do to the shared data and to the call. -/
inductive FrameStep (sha256 : List UInt8 → Digest) (g : ManagerShared) (call : FrameCall) :
    ManagerShared → FrameCall → Prop
  | ignore (hfrom : call.phase = .called)
      (hoverride : CatastrophicManager.isCatastrophicOverride call.request.pfpBytes = false) :
      FrameStep sha256 g call g (call.goto .ignored)
  | trigger (clock : SystemTime) (hfrom : call.phase = .called)
      (hoverride : CatastrophicManager.isCatastrophicOverride call.request.pfpBytes = true) :
      FrameStep sha256 g call g
        (call.goto (.triggered (CatastrophicEvent.new call.request clock)))
  | send (event : CatastrophicEvent) (hfrom : call.phase = .triggered event) :
      FrameStep sha256 g call (g.send event) (call.goto (.sent event))
  | record (event : CatastrophicEvent) (hfrom : call.phase = .sent event) :
      FrameStep sha256 g call (g.record sha256 event) (call.goto (.recorded event))

namespace FrameCall

variable {sha256 : List UInt8 → Digest} {s : ManagerState} {call call' : FrameCall}
  {clock : SystemTime} {g : ManagerShared}

/-- **What a step of a call can do.** -/
theorem tick_cases (h : tick sha256 s call clock = some (g, call')) :
    FrameStep sha256 s.shared call g call' := by
  unfold tick at h
  dsimp only at h
  cases hphase : call.phase with
  | called =>
      rw [hphase] at h
      cases hoverride : CatastrophicManager.isCatastrophicOverride call.request.pfpBytes with
      | false =>
          rw [hoverride] at h
          cases h
          exact .ignore hphase hoverride
      | true =>
          rw [hoverride] at h
          cases h
          exact .trigger clock hphase hoverride
  | triggered event =>
      rw [hphase] at h
      cases h
      exact .send event hphase
  | sent event =>
      rw [hphase] at h
      cases h
      exact .record event hphase
  | recorded event | ignored =>
      rw [hphase] at h
      cases h

/-- A call keeps to its request. -/
theorem request_of_tick (h : tick sha256 s call clock = some (g, call')) :
    call'.request = call.request := by
  cases tick_cases h <;> rfl

/-! ### A call that runs alone -/

/-- The step of the only call. -/
theorem step_alone {g g' : ManagerShared}
    (h : tick sha256 { shared := g, threads := [call] } call clock = some (g', call')) :
    ManagerState.step sha256 { shared := g, threads := [call] } (.call (.advance 0 clock)) =
      some { shared := g', threads := [call'] } := by
  rw [ManagerState.step]
  exact Threads.step_of_tick rfl h

/-- **A call that runs alone** does in a few steps what the sequential operation does. -/
theorem run_alone (sha256 : List UInt8 → Digest) (g : ManagerShared) (request : FrameRequest)
    (clock : SystemTime) :
    ∃ k s, Runs.run (ManagerState.step sha256) { shared := g, threads := [start request] }
        (List.replicate k (.call (.advance 0 clock))) = some s ∧
      s.shared.manager = (g.manager.handleFrame sha256 request clock).2 ∧
      s.threads.map answer = [some (g.manager.handleFrame sha256 request clock).1] := by
  rw [CatastrophicManager.handleFrame]
  cases hoverride : CatastrophicManager.isCatastrophicOverride request.pfpBytes with
  | false =>
      have h₁ : ManagerState.step sha256 { shared := g, threads := [start request] }
          (.call (.advance 0 clock)) =
          some { shared := g, threads := [(start request).goto .ignored] } :=
        step_alone (by simp [tick, start, hoverride])
      exact ⟨1, _, (Runs.run_cons_eq_some_iff _).2 ⟨_, h₁, rfl⟩, rfl, rfl⟩
  | true =>
      let event := CatastrophicEvent.new request clock
      have h₁ : ManagerState.step sha256 { shared := g, threads := [start request] }
          (.call (.advance 0 clock)) =
          some { shared := g, threads := [(start request).goto (.triggered event)] } :=
        step_alone (by simp [tick, start, hoverride, event])
      have h₂ : ManagerState.step sha256
          { shared := g, threads := [(start request).goto (.triggered event)] }
          (.call (.advance 0 clock)) =
          some { shared := g.send event, threads := [(start request).goto (.sent event)] } :=
        step_alone rfl
      have h₃ : ManagerState.step sha256
          { shared := g.send event, threads := [(start request).goto (.sent event)] }
          (.call (.advance 0 clock)) =
          some { shared := (g.send event).record sha256 event
                 threads := [(start request).goto (.recorded event)] } :=
        step_alone rfl
      refine ⟨3, _, (Runs.run_cons_eq_some_iff _).2 ⟨_, h₁, (Runs.run_cons_eq_some_iff _).2
        ⟨_, h₂, (Runs.run_cons_eq_some_iff _).2 ⟨_, h₃, rfl⟩⟩⟩, ?_, rfl⟩
      rw [ManagerShared.record, ManagerShared.manager_send]
      rfl

end FrameCall

end Bind19
