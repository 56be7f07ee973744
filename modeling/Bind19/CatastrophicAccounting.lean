/-
**Every hard override is accounted for.**

Sending and recording are two steps, and other calls run between them.  So the bus and the log agree
only up to the calls that are caught in between; when no call is in progress they hold the same
events, each once.  The receiver does not matter to the log: when it goes away the sends fail, and
the events are recorded all the same.

An event is recorded for exactly the calls whose bytes pass the test for the hard override.  The
test reads the risk level as it stands in the PFP.  Rule 6 is meant to take precedence: without a
replay check the effective risk level is medium, and the override must not be triggered.  The test
does not look at the Replay-Enable bit, so that this holds of the runs in which no frame asks for
the override with the bit off, and of no others once their calls have returned.

Main definitions:

* `Bind19.ManagerState.Accounted` — the histories agree with the calls;
* `Bind19.ManagerState.AllEffective` — every trigger has a catastrophic effective risk level;
* `Bind19.FrameRequest.Shielded` — a frame does not ask for the override with the bit off.

Main results:

* `Bind19.ManagerState.Accounted.step` — what one action preserves;
* `Bind19.ManagerState.run_accounted` — **every trigger is recorded once**, in every run;
* `Bind19.ManagerState.run_allEffective` — **when rule 6 takes precedence**.
-/

import Bind19.AuditHistory
import Bind19.CatastrophicRace

set_option relaxedAutoImplicit false
set_option autoImplicit false

namespace Bind19

variable {sha256 : List UInt8 → Digest}

/-! ### The calls and their events -/

namespace FrameCall

/-- The event of a call belongs to its frame, and the frame triggers the override exactly if there
is one. -/
def Consistent (call : FrameCall) : Prop :=
  match call.phase with
  | .called => True
  | .triggered event | .sent event | .recorded event =>
      CatastrophicManager.isCatastrophicOverride call.request.pfpBytes = true ∧
        ∃ clock, event = CatastrophicEvent.new call.request clock
  | .ignored => CatastrophicManager.isCatastrophicOverride call.request.pfpBytes = false

variable {g g' : ManagerShared} {call call' : FrameCall} {event : CatastrophicEvent}

/-- A step keeps a call consistent. -/
theorem Consistent.step (h : call.Consistent) (hstep : FrameStep sha256 g call g' call') :
    call'.Consistent := by
  unfold Consistent at h
  cases hstep with
  | ignore hfrom hoverride => exact hoverride
  | trigger clock hfrom hoverride => exact ⟨hoverride, clock, rfl⟩
  | send event hfrom | record event hfrom =>
      rw [hfrom] at h
      exact h

/-- What a call has sent is the event of its frame. -/
theorem Consistent.of_sentEvent (h : call.Consistent) (hevent : call.sentEvent = some event) :
    CatastrophicManager.isCatastrophicOverride call.request.pfpBytes = true ∧
      ∃ clock, event = CatastrophicEvent.new call.request clock := by
  unfold Consistent at h
  unfold sentEvent at hevent
  cases hphase : call.phase with
  | sent e | recorded e =>
      rw [hphase] at h hevent
      cases hevent
      exact h
  | called | triggered e | ignored =>
      rw [hphase] at hevent
      cases hevent

/-- What a call has recorded it has sent before. -/
theorem sentEvent_of_recordedEvent (h : call.recordedEvent = some event) :
    call.sentEvent = some event := by
  unfold recordedEvent at h
  unfold sentEvent
  cases hphase : call.phase with
  | recorded e =>
      rw [hphase] at h
      exact h
  | called | triggered e | sent e | ignored =>
      rw [hphase] at h
      cases h

/-- A call that has returned has recorded what it has sent, and it answers whether there was
something. -/
theorem returned_eq (h : call.answer.isSome = true) :
    call.sentEvent = call.recordedEvent ∧ call.answer = some call.recordedEvent.isSome := by
  unfold answer at h ⊢
  unfold sentEvent recordedEvent
  cases hphase : call.phase with
  | recorded e | ignored => exact ⟨rfl, rfl⟩
  | called | triggered e | sent e =>
      rw [hphase] at h
      cases h

end FrameCall

/-- The frame does not ask for the hard override with the Replay-Enable bit off. -/
def FrameRequest.Shielded (request : FrameRequest) : Prop :=
  CatastrophicManager.isCatastrophicOverride request.pfpBytes = true →
    CatastrophicManager.replayEnableBit request.pfpBytes = true

instance (request : FrameRequest) : Decidable request.Shielded :=
  inferInstanceAs (Decidable (_ → _))

namespace ManagerAction

/-- The frame that an action begins to handle. -/
def request : ManagerAction → Option FrameRequest
  | call action => action.spawned
  | recv => none
  | dropReceiver => none

/-- The frames that are handled in a run. -/
def requests (actions : List ManagerAction) : List FrameRequest := actions.filterMap request

end ManagerAction

namespace ManagerState

/-! ### The histories agree with the calls -/

/-- The histories agree with the calls: the log stands for the recorded entries, which are a chain;
the recorded events are those of the calls that have recorded theirs, and the events in the channel
are those of the calls that have sent theirs, for as long as there is a receiver. -/
structure Accounted (sha256 : List UInt8 → Digest) (s : ManagerState) : Prop where
  log : CatastrophicAuditLog.Represents sha256 s.shared.manager.auditLog
    (s.shared.appended.map AuditEntry.event) s.shared.appended.length
  chain : s.shared.appended = AuditChain.chain sha256 (s.shared.appended.map AuditEntry.event)
  recorded : (s.shared.appended.map AuditEntry.event).Perm
    (s.threads.filterMap FrameCall.recordedEvent)
  sent : s.shared.manager.eventBus.receiverAlive = true →
    s.shared.sent.Perm (s.threads.filterMap FrameCall.sentEvent)
  passed : s.shared.sent ⊆ s.threads.filterMap FrameCall.sentEvent
  queued : s.shared.manager.eventBus.receiverAlive = true →
    s.shared.sent = s.shared.received ++ s.shared.manager.eventBus.queue
  consistent : ∀ call ∈ s.threads, call.Consistent

variable {s s' : ManagerState} {a : ManagerAction}

theorem accounted_init (sha256 : List UInt8 → Digest) : init.Accounted sha256 where
  log := CatastrophicAuditLog.represents_new
  chain := rfl
  recorded := List.Perm.nil
  sent _ := List.Perm.nil
  passed := List.nil_subset _
  queued _ := rfl
  consistent _ hcall := by cases hcall

/-- Which calls there are matters only for what they have sent and recorded. -/
theorem Accounted.of_threads (h : s.Accounted sha256) {threads : List FrameCall}
    (hrecorded : threads.filterMap FrameCall.recordedEvent =
      s.threads.filterMap FrameCall.recordedEvent)
    (hsent : threads.filterMap FrameCall.sentEvent = s.threads.filterMap FrameCall.sentEvent)
    (hconsistent : ∀ call ∈ threads, call.Consistent) :
    Accounted sha256 { shared := s.shared, threads } := by
  refine ⟨h.log, h.chain, ?_, ?_, ?_, h.queued, hconsistent⟩
  · dsimp only
    rw [hrecorded]
    exact h.recorded
  · dsimp only
    rw [hsent]
    exact h.sent
  · dsimp only
    rw [hsent]
    exact h.passed

/-- What a new call preserves. -/
theorem Accounted.spawn (h : s.Accounted sha256) (request : FrameRequest) :
    Accounted sha256
      { shared := s.shared, threads := s.threads ++ [FrameCall.start request] } := by
  refine h.of_threads ?_ ?_ ?_
  · rw [List.filterMap_append]
    exact List.append_nil _
  · rw [List.filterMap_append]
    exact List.append_nil _
  · intro call hcall
    rcases List.mem_append.1 hcall with hcall | hcall
    · exact h.consistent call hcall
    · rw [List.mem_singleton.1 hcall]
      trivial

variable {i : ℕ} {call call' : FrameCall} {g : ManagerShared} {event : CatastrophicEvent}

/-- After the step of one call all calls are consistent. -/
theorem Accounted.consistent_set (h : s.Accounted sha256) (hi : s.threads[i]? = some call)
    (hstep : FrameStep sha256 s.shared call g call') :
    ∀ other ∈ s.threads.set i call', other.Consistent := by
  intro other hother
  rcases Threads.eq_or_mem_of_mem_set hother with rfl | hother
  · exact (h.consistent call (List.mem_of_getElem? hi)).step hstep
  · exact h.consistent other hother

/-- What a step preserves that touches nothing shared. -/
theorem Accounted.quiet (h : s.Accounted sha256) (hi : s.threads[i]? = some call)
    (hstep : FrameStep sha256 s.shared call s.shared call')
    (hrecorded : call'.recordedEvent = call.recordedEvent)
    (hsent : call'.sentEvent = call.sentEvent) :
    Accounted sha256 { shared := s.shared, threads := s.threads.set i call' } :=
  h.of_threads (Threads.filterMap_set_of_eq hi hrecorded) (Threads.filterMap_set_of_eq hi hsent)
    (h.consistent_set hi hstep)

/-- What sending an event preserves. -/
theorem Accounted.send (h : s.Accounted sha256) (hi : s.threads[i]? = some call)
    (hfrom : call.phase = .triggered event) :
    Accounted sha256
      { shared := s.shared.send event, threads := s.threads.set i (call.goto (.sent event)) } := by
  have hnone : call.sentEvent = none := by rw [FrameCall.sentEvent, hfrom]
  have hrecorded : (s.threads.set i (call.goto (.sent event))).filterMap FrameCall.recordedEvent =
      s.threads.filterMap FrameCall.recordedEvent := by
    refine Threads.filterMap_set_of_eq hi ?_
    rw [FrameCall.recordedEvent, FrameCall.recordedEvent, hfrom]
    rfl
  have hsent : ((s.threads.set i (call.goto (.sent event))).filterMap FrameCall.sentEvent).Perm
      (s.threads.filterMap FrameCall.sentEvent ++ [event]) :=
    Threads.perm_filterMap_set hi hnone rfl
  have hconsistent := h.consistent_set hi (FrameStep.send event hfrom)
  cases halive : s.shared.manager.eventBus.receiverAlive with
  | true =>
      have hshared : s.shared.send event =
          { s.shared with
            manager := { s.shared.manager with
              eventBus := { queue := s.shared.manager.eventBus.queue ++ [event]
                            receiverAlive := true } }
            sent := s.shared.sent ++ [event] } := by
        simp [ManagerShared.send, CatastrophicEventBus.send, halive]
      rw [hshared]
      refine ⟨h.log, h.chain, ?_, fun _ => ?_, ?_, fun _ => ?_, hconsistent⟩
      · dsimp only
        rw [hrecorded]
        exact h.recorded
      · exact ((h.sent halive).append_right [event]).trans hsent.symm
      · intro e he
        refine hsent.symm.subset ?_
        rcases List.mem_append.1 he with he | he
        · exact List.mem_append_left _ (h.passed he)
        · exact List.mem_append_right _ he
      · dsimp only
        rw [h.queued halive, List.append_assoc]
  | false =>
      -- the event comes back, and nobody looks at it
      have hshared : s.shared.send event = s.shared := by
        simp [ManagerShared.send, CatastrophicEventBus.send, halive]
      rw [hshared]
      refine ⟨h.log, h.chain, ?_, fun hdead => ?_, ?_, h.queued, hconsistent⟩
      · dsimp only
        rw [hrecorded]
        exact h.recorded
      · rw [halive] at hdead
        cases hdead
      · intro e he
        exact hsent.symm.subset (List.mem_append_left _ (h.passed he))

/-- What recording an event preserves. -/
theorem Accounted.record (h : s.Accounted sha256) (hi : s.threads[i]? = some call)
    (hfrom : call.phase = .sent event) :
    Accounted sha256
      { shared := s.shared.record sha256 event
        threads := s.threads.set i (call.goto (.recorded event)) } := by
  have hnone : call.recordedEvent = none := by rw [FrameCall.recordedEvent, hfrom]
  have hsent : (s.threads.set i (call.goto (.recorded event))).filterMap FrameCall.sentEvent =
      s.threads.filterMap FrameCall.sentEvent := by
    refine Threads.filterMap_set_of_eq hi ?_
    rw [FrameCall.sentEvent, FrameCall.sentEvent, hfrom]
    rfl
  have hevents : (s.shared.record sha256 event).appended.map AuditEntry.event =
      s.shared.appended.map AuditEntry.event ++ [event] := by
    rw [ManagerShared.record, List.map_append]
    rfl
  refine ⟨?_, ?_, ?_, ?_, ?_, h.queued, h.consistent_set hi (FrameStep.record event hfrom)⟩
  · rw [hevents]
    have hlength : (s.shared.record sha256 event).appended.length =
        s.shared.appended.length + 1 := List.length_append
    dsimp only
    rw [hlength]
    exact h.log.append event
  · dsimp only
    rw [hevents, ← h.log.nextEntry event, ← h.chain]
    rfl
  · dsimp only
    rw [hevents]
    exact (h.recorded.append_right [event]).trans
      (Threads.perm_filterMap_set hi hnone rfl).symm
  · dsimp only
    rw [hsent]
    exact h.sent
  · dsimp only
    rw [hsent]
    exact h.passed

/-- What a step of a call preserves. -/
theorem Accounted.advance (h : s.Accounted sha256) (hi : s.threads[i]? = some call)
    (hstep : FrameStep sha256 s.shared call g call') :
    Accounted sha256 { shared := g, threads := s.threads.set i call' } := by
  cases hstep with
  | ignore hfrom hoverride =>
      refine h.quiet hi (.ignore hfrom hoverride) ?_ ?_
      · rw [FrameCall.recordedEvent, FrameCall.recordedEvent, hfrom]
        rfl
      · rw [FrameCall.sentEvent, FrameCall.sentEvent, hfrom]
        rfl
  | trigger clock hfrom hoverride =>
      refine h.quiet hi (.trigger clock hfrom hoverride) ?_ ?_
      · rw [FrameCall.recordedEvent, FrameCall.recordedEvent, hfrom]
        rfl
      · rw [FrameCall.sentEvent, FrameCall.sentEvent, hfrom]
        rfl
  | send event hfrom => exact h.send hi hfrom
  | record event hfrom => exact h.record hi hfrom

/-- **What one action preserves.** -/
theorem Accounted.step (h : s.Accounted sha256) (hstep : s.step sha256 a = some s') :
    s'.Accounted sha256 := by
  cases a with
  | call action =>
      rcases Threads.step_cases hstep with
        ⟨request, rfl, rfl⟩ | ⟨i, clock, call, g, call', rfl, hi, htick, rfl⟩
      · exact h.spawn request
      · exact h.advance hi (FrameCall.tick_cases htick)
  | recv =>
      rw [ManagerState.step, CatastrophicEventBus.recv] at hstep
      cases halive : s.shared.manager.eventBus.receiverAlive with
      | true =>
          rw [halive] at hstep
          cases hqueue : s.shared.manager.eventBus.queue with
          | nil =>
              rw [hqueue] at hstep
              cases hstep
          | cons event queue =>
              rw [hqueue] at hstep
              obtain rfl := Option.some.inj hstep
              refine ⟨h.log, h.chain, h.recorded, fun _ => h.sent halive, h.passed, fun _ => ?_,
                h.consistent⟩
              dsimp only
              rw [h.queued halive, hqueue, List.append_assoc, List.singleton_append]
      | false =>
          rw [halive] at hstep
          cases hstep
  | dropReceiver =>
      obtain rfl := Option.some.inj hstep
      refine ⟨h.log, h.chain, h.recorded, fun halive => ?_, h.passed, fun halive => ?_,
        h.consistent⟩
      · cases halive
      · cases halive

/-! ### Runs -/

/-- The histories agree with the calls after every run. -/
theorem accounted_of_run {actions : List ManagerAction}
    (hrun : Runs.run (ManagerState.step sha256) init actions = some s) : s.Accounted sha256 :=
  Runs.invariant (fun _ _ _ h hstep => Accounted.step h hstep) (accounted_init sha256) hrun

/-- No call is in progress. -/
def Quiescent (s : ManagerState) : Prop := ∀ call ∈ s.threads, call.answer.isSome = true

instance (s : ManagerState) : Decidable s.Quiescent :=
  inferInstanceAs (Decidable (∀ call ∈ s.threads, call.answer.isSome = true))

/-- The recorded entries are numbered from zero. -/
theorem Accounted.map_sequence (h : s.Accounted sha256) :
    s.shared.appended.map AuditEntry.sequence =
      (List.range s.shared.appended.length).map UInt64.ofNat := by
  have hsequence : (AuditChain.chain sha256 (s.shared.appended.map AuditEntry.event)).map
      AuditEntry.sequence = _ := AuditChain.map_sequence_chain sha256 _
  rwa [← h.chain, List.length_map] at hsequence

/-- When no call is in progress, there is an entry for every call that has returned `true`. -/
theorem Accounted.length_appended (h : s.Accounted sha256) (hquiet : s.Quiescent) :
    s.shared.appended.length = s.threads.countP fun call => call.answer == some true := by
  have hlength := h.recorded.length_eq
  rw [List.length_map, List.length_filterMap_eq_countP] at hlength
  rw [hlength]
  refine List.countP_congr fun call hcall => ?_
  rw [(FrameCall.returned_eq (hquiet call hcall)).2]
  simp

/-- A call answers `true` exactly if its frame triggers, and then its event is on record. -/
theorem Accounted.answer_eq_some (h : s.Accounted sha256) (hcall : call ∈ s.threads)
    {answer : Bool} (hanswer : call.answer = some answer) :
    (answer = true ↔ CatastrophicManager.isCatastrophicOverride call.request.pfpBytes = true) ∧
      (answer = true → ∃ event, call.recordedEvent = some event ∧
        event ∈ s.shared.appended.map AuditEntry.event) := by
  have hconsistent := h.consistent call hcall
  unfold FrameCall.Consistent at hconsistent
  unfold FrameCall.answer at hanswer
  cases hphase : call.phase with
  | recorded event =>
      rw [hphase] at hconsistent hanswer
      obtain rfl := Option.some.inj hanswer
      have hrecorded : call.recordedEvent = some event := by
        rw [FrameCall.recordedEvent, hphase]
      refine ⟨iff_of_true rfl hconsistent.1, fun _ => ⟨event, hrecorded, ?_⟩⟩
      exact h.recorded.symm.subset (List.mem_filterMap.2 ⟨call, hcall, hrecorded⟩)
  | ignored =>
      rw [hphase] at hconsistent hanswer
      obtain rfl := Option.some.inj hanswer
      have hquiet : CatastrophicManager.isCatastrophicOverride call.request.pfpBytes = false :=
        hconsistent
      rw [hquiet]
      exact ⟨Iff.rfl, fun hfalse => absurd hfalse Bool.false_ne_true⟩
  | called | triggered event | sent event =>
      rw [hphase] at hanswer
      cases hanswer

/-- When no call is in progress, and there is a receiver, what was sent was recorded. -/
theorem Accounted.sent_perm (h : s.Accounted sha256) (hquiet : s.Quiescent)
    (halive : s.shared.manager.eventBus.receiverAlive = true) :
    s.shared.sent.Perm (s.shared.appended.map AuditEntry.event) := by
  have hsame : s.threads.filterMap FrameCall.sentEvent =
      s.threads.filterMap FrameCall.recordedEvent :=
    List.filterMap_congr fun call hcall => (FrameCall.returned_eq (hquiet call hcall)).1
  exact (h.sent halive).trans (hsame ▸ h.recorded.symm)

/-- A call whose frame does not trigger adds nothing. -/
theorem Accounted.of_not_override (h : s.Accounted sha256) (hcall : call ∈ s.threads)
    (hoverride : CatastrophicManager.isCatastrophicOverride call.request.pfpBytes = false) :
    call.sentEvent = none ∧ call.recordedEvent = none ∧
      ∀ clock g call', call.tick sha256 s clock = some (g, call') → g = s.shared := by
  have hconsistent := h.consistent call hcall
  have hsent : call.sentEvent = none := by
    rw [← Option.not_isSome_iff_eq_none, Option.isSome_iff_exists]
    rintro ⟨event, hevent⟩
    rw [(hconsistent.of_sentEvent hevent).1] at hoverride
    cases hoverride
  refine ⟨hsent, ?_, ?_⟩
  · cases hrecorded : call.recordedEvent with
    | none => rfl
    | some event =>
        rw [FrameCall.sentEvent_of_recordedEvent hrecorded] at hsent
        cases hsent
  · intro clock g call' htick
    unfold FrameCall.Consistent at hconsistent
    cases FrameCall.tick_cases htick with
    | ignore | trigger => rfl
    | send event hfrom | record event hfrom =>
        rw [hfrom, hoverride] at hconsistent
        cases hconsistent.1

/-- **Every trigger is recorded once.**  Take any run of calls on a manager and its clones, with
their steps in any order, and with the receiver taking events or going away at any moment.  In the
state reached, the recorded events are those of the calls that have recorded theirs, each once, and
they are the events of frames that trigger the override; a call that has returned has answered
`true` exactly if its frame triggers, and then its event is among the recorded ones; the entries are
numbered from zero in the order in which they were recorded, the log holds the last of them, and the
count of triggers is their number.  When no call is in progress, that is the number of calls that
have returned `true`, and, if there is a receiver, the events that were sent are those that were
recorded.  A call whose frame does not trigger adds nothing.  The counters are 64-bit words. -/
theorem run_accounted (sha256 : List UInt8 → Digest) (actions : List ManagerAction)
    (s : ManagerState) (hrun : Runs.run (ManagerState.step sha256) init actions = some s) :
    (s.shared.appended.map AuditEntry.event).Perm (s.threads.filterMap FrameCall.recordedEvent) ∧
      (∀ call ∈ s.threads, ∀ event, call.recordedEvent = some event →
        CatastrophicManager.isCatastrophicOverride call.request.pfpBytes = true ∧
          ∃ clock, event = CatastrophicEvent.new call.request clock) ∧
      (∀ call ∈ s.threads, ∀ answer, call.answer = some answer →
        (answer = true ↔
            CatastrophicManager.isCatastrophicOverride call.request.pfpBytes = true) ∧
          (answer = true → ∃ event, call.recordedEvent = some event ∧
            event ∈ s.shared.appended.map AuditEntry.event)) ∧
      s.shared.appended.map AuditEntry.sequence =
        (List.range s.shared.appended.length).map UInt64.ofNat ∧
      s.shared.manager.auditEntries = s.shared.appended.rtake auditLogMaxEntries ∧
      s.shared.manager.totalTriggers = UInt64.ofNat s.shared.appended.length ∧
      (s.Quiescent →
        s.shared.manager.totalTriggers =
            UInt64.ofNat (s.threads.countP fun call => call.answer == some true) ∧
          (s.shared.manager.eventBus.receiverAlive = true →
            s.shared.sent.Perm (s.shared.appended.map AuditEntry.event) ∧
              s.shared.sent = s.shared.received ++ s.shared.manager.eventBus.queue)) ∧
      ∀ call ∈ s.threads,
        CatastrophicManager.isCatastrophicOverride call.request.pfpBytes = false →
          call.sentEvent = none ∧ call.recordedEvent = none ∧
            ∀ clock g call', call.tick sha256 s clock = some (g, call') → g = s.shared := by
  have h := accounted_of_run hrun
  have htotal : s.shared.manager.totalTriggers = UInt64.ofNat s.shared.appended.length :=
    h.log.totalTriggers
  refine ⟨h.recorded, ?_, fun call hcall answer hanswer => h.answer_eq_some hcall hanswer,
    h.map_sequence, ?_, htotal, ?_, ?_⟩
  · intro call hcall event hevent
    exact (h.consistent call hcall).of_sentEvent (FrameCall.sentEvent_of_recordedEvent hevent)
  · rw [CatastrophicManager.auditEntries, h.log.entries, ← h.chain]
  · intro hquiet
    rw [htotal, h.length_appended hquiet]
    exact ⟨rfl, fun halive => ⟨h.sent_perm hquiet halive, h.queued halive⟩⟩
  · intro call hcall hoverride
    exact h.of_not_override hcall hoverride

/-- A frame that triggers the override, with the Replay-Enable bit on or off. -/
def overrideRequest (replayEnable : Bool) : FrameRequest :=
  { pfpBytes := ⟨#[0xCF, 0x14, 0xEE, if replayEnable then 0x07 else 0x03], rfl⟩
    seqCounter := some 42
    sensorContext := none
    source := "tuck" }

/-- Two calls that record their events in the other order than they have sent them; the receiver
takes one of them. -/
def crossedCalls : List ManagerAction :=
  [.call (.spawn (overrideRequest true)), .call (.spawn (overrideRequest true)),
    .call (.advance 0 (some (1, 0))), .call (.advance 1 (some (2, 0))), .call (.advance 0 none),
    .call (.advance 1 none), .call (.advance 1 none), .recv, .call (.advance 0 none)]

/-- The state afterwards. -/
def afterCrossedCalls : ManagerState :=
  (Runs.run (ManagerState.step fun _ => zeroDigest) init crossedCalls).get (by decide)

/-- Both events are recorded, both calls have returned `true`, and the receiver has taken or will
take the same events. -/
theorem run_accounted_crossedCalls :
    (afterCrossedCalls.shared.appended.map AuditEntry.event).Perm
        (afterCrossedCalls.threads.filterMap FrameCall.recordedEvent) ∧
      afterCrossedCalls.shared.appended.length = 2 ∧
      afterCrossedCalls.shared.manager.totalTriggers =
        UInt64.ofNat (afterCrossedCalls.threads.countP fun call => call.answer == some true) ∧
      afterCrossedCalls.shared.sent.Perm (afterCrossedCalls.shared.appended.map AuditEntry.event) ∧
      afterCrossedCalls.shared.sent =
        afterCrossedCalls.shared.received ++
          afterCrossedCalls.shared.manager.eventBus.queue := by
  obtain ⟨hrecorded, -, -, -, -, -, hquiescent, -⟩ := run_accounted (fun _ => zeroDigest)
    crossedCalls afterCrossedCalls (Option.some_get _).symm
  obtain ⟨htotal, hsent⟩ := hquiescent (by decide)
  exact ⟨hrecorded, by decide, htotal, hsent (by decide)⟩

/-! ### Rule 6 and the hard override -/

/-- Every trigger has a catastrophic effective risk level and the hard-override flag: the frame of
every call that has returned `true`, every event that was sent, and every event that was
recorded. -/
structure AllEffective (s : ManagerState) : Prop where
  returned : ∀ call ∈ s.threads, call.answer = some true →
    CatastrophicManager.EffectiveOverride call.request.pfpBytes
  sent : ∀ event ∈ s.shared.sent, CatastrophicManager.EffectiveOverride event.pfpBytes
  recorded : ∀ entry ∈ s.shared.appended,
    CatastrophicManager.EffectiveOverride entry.event.pfpBytes

/-- What a call has sent is effective if its frame is shielded. -/
theorem Accounted.effective_of_sentEvent (h : s.Accounted sha256)
    (hshielded : ∀ call ∈ s.threads, call.request.Shielded)
    (hevent : event ∈ s.threads.filterMap FrameCall.sentEvent) :
    CatastrophicManager.EffectiveOverride event.pfpBytes := by
  obtain ⟨call, hcall, hsent⟩ := List.mem_filterMap.1 hevent
  obtain ⟨hoverride, clock, rfl⟩ := (h.consistent call hcall).of_sentEvent hsent
  exact (CatastrophicManager.effectiveOverride_iff hoverride).2 (hshielded call hcall hoverride)

/-- Where all frames are shielded, every trigger is effective. -/
theorem Accounted.allEffective (h : s.Accounted sha256)
    (hshielded : ∀ call ∈ s.threads, call.request.Shielded) : s.AllEffective where
  returned call hcall hanswer := by
    have hoverride := (h.answer_eq_some hcall hanswer).1.1 rfl
    exact (CatastrophicManager.effectiveOverride_iff hoverride).2 (hshielded call hcall hoverride)
  sent event hevent := h.effective_of_sentEvent hshielded (h.passed hevent)
  recorded entry hentry := by
    refine h.effective_of_sentEvent hshielded ?_
    obtain ⟨call, hcall, hrecorded⟩ :=
      List.mem_filterMap.1 (h.recorded.subset (List.mem_map_of_mem hentry))
    exact List.mem_filterMap.2 ⟨call, hcall, FrameCall.sentEvent_of_recordedEvent hrecorded⟩

/-- Once all calls have returned, every trigger is effective only where all frames are shielded. -/
theorem Accounted.shielded (h : s.Accounted sha256) (hquiet : s.Quiescent)
    (heffective : s.AllEffective) : ∀ call ∈ s.threads, call.request.Shielded := by
  intro call hcall hoverride
  obtain ⟨answer, hanswer⟩ := Option.isSome_iff_exists.1 (hquiet call hcall)
  obtain rfl := (h.answer_eq_some hcall hanswer).1.2 hoverride
  exact (CatastrophicManager.effectiveOverride_iff hoverride).1
    (heffective.returned call hcall hanswer)

theorem map_request_of_step (hstep : s.step sha256 a = some s') :
    s'.threads.map FrameCall.request = s.threads.map FrameCall.request ++ a.request.toList := by
  cases a with
  | call action =>
      have hcall : Threads.step FrameCall.start (FrameCall.tick sha256) s action = some s' := hstep
      refine Threads.map_threads_of_step (fun _ => rfl) (fun _ _ _ _ _ htick => ?_) hcall
      exact FrameCall.request_of_tick htick
  | recv =>
      rw [ManagerState.step] at hstep
      cases hrecv : s.shared.manager.eventBus.recv with
      | none =>
          rw [hrecv] at hstep
          cases hstep
      | some answer =>
          rw [hrecv] at hstep
          obtain rfl := Option.some.inj hstep
          exact (List.append_nil _).symm
  | dropReceiver =>
      obtain rfl := Option.some.inj hstep
      exact (List.append_nil _).symm

/-- The calls of a state are those that the actions began. -/
theorem map_request_of_run {actions : List ManagerAction}
    (hrun : Runs.run (ManagerState.step sha256) s actions = some s') :
    s'.threads.map FrameCall.request =
      s.threads.map FrameCall.request ++ ManagerAction.requests actions := by
  induction actions generalizing s with
  | nil =>
      obtain rfl := Option.some.inj hrun
      exact (List.append_nil _).symm
  | cons a actions ih =>
      obtain ⟨s₁, hstep, hrun⟩ := (Runs.run_cons_eq_some_iff _).1 hrun
      rw [ih hrun, map_request_of_step hstep, List.append_assoc]
      congr 1
      cases h : a.request <;> simp [ManagerAction.requests, h]

/-- **When rule 6 takes precedence.**  Take any run of calls on a manager and its clones, with their
steps in any order, and with the receiver taking events or going away at any moment.  If no frame
asks for the hard override with the Replay-Enable bit off, then in the state reached every call that
has returned `true`, every event that was sent and every event that was recorded belongs to a PFP
with a catastrophic effective risk level and the hard-override flag.  And if that is so in a state
in which all calls have returned, then no frame has asked for the override with the bit off. -/
theorem run_allEffective (sha256 : List UInt8 → Digest) (actions : List ManagerAction)
    (s : ManagerState) (hrun : Runs.run (ManagerState.step sha256) init actions = some s) :
    ((∀ request ∈ ManagerAction.requests actions, request.Shielded) → s.AllEffective) ∧
      (s.Quiescent →
        (s.AllEffective ↔ ∀ request ∈ ManagerAction.requests actions, request.Shielded)) := by
  have h := accounted_of_run hrun
  have hrequests : s.threads.map FrameCall.request = ManagerAction.requests actions :=
    map_request_of_run hrun
  have hshielded : (∀ request ∈ ManagerAction.requests actions, request.Shielded) ↔
      ∀ call ∈ s.threads, call.request.Shielded := by
    rw [← hrequests]
    exact List.forall_mem_map
  rw [hshielded]
  exact ⟨h.allEffective, fun hquiet => ⟨h.shielded hquiet, h.allEffective⟩⟩

/-- A frame that asks for the override with the bit on. -/
def shieldedCalls : List ManagerAction :=
  [.call (.spawn (overrideRequest true)), .call (.advance 0 none), .call (.advance 0 none),
    .call (.advance 0 none)]

/-- The state afterwards. -/
def afterShieldedCalls : ManagerState :=
  (Runs.run (ManagerState.step fun _ => zeroDigest) init shieldedCalls).get (by decide)

/-- The trigger is effective. -/
theorem run_allEffective_shieldedCalls : afterShieldedCalls.AllEffective :=
  (run_allEffective (fun _ => zeroDigest) shieldedCalls afterShieldedCalls
    (Option.some_get _).symm).1 (by decide)

/-- A frame that asks for the override with the Replay-Enable bit off: the call returns `true`, the
event is sent and recorded, and the effective risk level of the frame is medium. -/
theorem run_downgradedCall :
    (Runs.run (ManagerState.step fun _ => zeroDigest) init
        [.call (.spawn (overrideRequest false)), .call (.advance 0 none), .call (.advance 0 none),
          .call (.advance 0 none)]).map (fun s =>
            (s.threads.map FrameCall.answer, s.shared.sent.map CatastrophicEvent.pfpBytes,
              s.shared.appended.map fun entry => entry.event.pfpBytes)) =
        some ([some true], [(overrideRequest false).pfpBytes], [(overrideRequest false).pfpBytes]) ∧
      PfpHeader.verifyMagic (overrideRequest false).pfpBytes = true ∧
      (PfpHeader.decode (overrideRequest false).pfpBytes).effectiveRiskLevel = .medium ∧
      ¬ CatastrophicManager.EffectiveOverride (overrideRequest false).pfpBytes := by
  decide

end ManagerState

end Bind19
