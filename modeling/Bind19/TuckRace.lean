/-
**A gate that decides about several frames at the same time.**

A decision takes the gate by a shared reference, so several threads may decide at once, and then a
decision is no single step.  The manager of hard overrides looks at the frame, sends the event and
records it, one after the other; if the frame is no override, the processor looks the source up,
and stores the number or adds an entry later.

This module models the steps of any number of decisions, in any order, with the steps of the manager
and of the cache as they are without a gate.  Neither of the two can be told from a sequential one
in general: checks of one source overtake each other, and the order on the event bus is not that in
the log.  The gate can.  Its bus has no receiver; and if the frames of each source are decided one
after another, as they are where each source has a thread of its own, and an insertion still finds
room, then the decisions, the cache and the audit log are those of a gate that takes the same frames
one at a time, in the order in which the decisions take effect.

Main definitions:

* `Bind19.GateCall`, `Bind19.GateShared` — a decision and how far it has come, and what the
  decisions share;
* `Bind19.GateCall.tick` — the next atomic step of a decision;
* `Bind19.GateState.orderly` — a step that keeps the condition;
* `Bind19.GateState.Exclusive` — the invariant.

Main results:

* `Bind19.GateCall.tick_cases` — what a step can do;
* `Bind19.GateState.Exclusive.step` — what one step preserves;
* `Bind19.GateState.Exclusive.explained` — every step is explained by the sequential gate;
* `Bind19.GateState.run_oneByOne` — **decisions at the same time are decisions in the order in
  which they take effect**.
-/

import Bind19.CatastrophicAccounting
import Bind19.ReplayLinear
import Bind19.Tuck

set_option relaxedAutoImplicit false
set_option autoImplicit false

namespace Bind19

/-! ### Decisions under way -/

/-- How far a decision has come. -/
inductive GatePhase
  | called
  /-- The manager of hard overrides is at the frame. -/
  | handling (call : FrameCall)
  /-- The processor is at the frame. -/
  | checking (call : CheckCall)
  | decided (decision : TuckDecision)
  deriving DecidableEq

/-- The decision about a frame, in progress or made. -/
structure GateCall where
  frame : BindFrame
  sourceId : UInt64
  phase : GatePhase
  deriving DecidableEq

/-- What the decisions share: the gate, with the histories of its parts. -/
structure GateShared where
  tenantId : UInt64
  checks : CheckShared
  catastrophic : ManagerShared

/-- The gate and the decisions under way. -/
abbrev GateState := Threads.State GateShared GateCall

/-- The gate without the histories. -/
def GateShared.gate (g : GateShared) : TuckGate :=
  { processor := { replayCache := g.checks.cache, tenantId := g.tenantId }
    catastrophic := g.catastrophic.manager }

/-- The decision of a processed frame. -/
def GatePhase.ofResult (result : FrameProcessResult) : GatePhase :=
  .decided (if result.isRejected then .reject else .allow)

namespace GateCall

/-- A new call. -/
def start (request : BindFrame × UInt64) : GateCall :=
  { frame := request.1, sourceId := request.2, phase := .called }

/-- The call with another phase. -/
def goto (call : GateCall) (phase : GatePhase) : GateCall := { call with phase }

/-- The frame that is decided about, and its source. -/
def request (call : GateCall) : BindFrame × UInt64 := (call.frame, call.sourceId)

/-- The decision, when it is made. -/
def outcome (call : GateCall) : Option TuckDecision :=
  match call.phase with
  | .decided decision => some decision
  | _ => none

/-- The source of a frame that is not decided yet. -/
def source (call : GateCall) : Option UInt64 :=
  match call.phase with
  | .decided _ => none
  | _ => some call.sourceId

/-- The call of the manager that the decision waits for. -/
def frameCall (call : GateCall) : Option FrameCall :=
  match call.phase with
  | .handling frameCall => some frameCall
  | _ => none

/-- The check that the decision waits for. -/
def checkCall (call : GateCall) : Option CheckCall :=
  match call.phase with
  | .checking checkCall => some checkCall
  | _ => none

end GateCall

namespace GateState

/-- The manager and the calls on it. -/
def frames (s : GateState) : ManagerState :=
  { shared := s.shared.catastrophic, threads := s.threads.filterMap GateCall.frameCall }

/-- The cache and the checks that run on it. -/
def checks (s : GateState) : CheckState :=
  { shared := s.shared.checks, threads := s.threads.filterMap GateCall.checkCall }

end GateState

namespace GateCall

/-- The processor is called: it decides at once, or checks the number. -/
def process (g : GateShared) (call : GateCall) : GatePhase :=
  match call.frame.sap with
  | none => .ofResult .noSap
  | some sap =>
      if !FrameProcessor.replayEnable call.frame then .ofResult .allowed
      else .checking (CheckCall.start (g.gate.processor.key call.sourceId, sap.seqCounter))

/-- Where the decision stands after a step of the manager. -/
def afterFrame (g : GateShared) (call : GateCall) (frameCall : FrameCall) : GatePhase :=
  match frameCall.answer with
  | none => .handling frameCall
  | some true => .decided .catastrophicOverride
  | some false => call.process g

/-- Where the decision stands after a step of the check. -/
def afterCheck (checkCall : CheckCall) : GatePhase :=
  match checkCall.phase with
  | .returned result => .ofResult (.ofCheck result)
  | _ => .checking checkCall

variable (sha256 : List UInt8 → Digest) (shard : ReplayKey → ℕ)

/-- The next atomic step of a decision, with the readings of the two clocks. -/
def tick (s : GateState) (call : GateCall) (input : SystemTime × Instant) :
    Option (GateShared × GateCall) :=
  let g := s.shared
  match call.phase with
  | .called =>
      match call.frame.pfp with
      | none => some (g, call.goto (.decided .noSap))
      | some pfp =>
          some (g, call.goto (.handling (FrameCall.start (TuckGate.frameRequest pfp call.frame))))
  | .handling frameCall =>
      match FrameCall.tick sha256 s.frames frameCall input.1 with
      | none => none
      | some (catastrophic, frameCall) =>
          some ({ g with catastrophic }, call.goto (call.afterFrame g frameCall))
  | .checking checkCall =>
      match CheckCall.tick shard s.checks checkCall input.2 with
      | none => none
      | some (checks, checkCall) => some ({ g with checks }, call.goto (afterCheck checkCall))
  | .decided _ => none

end GateCall

/-- The actions: a decision begins, or takes its next step. -/
abbrev GateAction := Threads.Action (BindFrame × UInt64) (SystemTime × Instant)

namespace GateState

/-- One action. -/
def step (sha256 : List UInt8 → Digest) (shard : ReplayKey → ℕ) :
    GateState → GateAction → Option GateState :=
  Threads.step GateCall.start (GateCall.tick sha256 shard)

/-- A new gate, before any frame. -/
def init (tenantId : UInt64) : GateState :=
  let gate := TuckGate.new tenantId
  { shared :=
      { tenantId
        checks := (CheckState.begin gate.processor.replayCache).shared
        catastrophic := { ManagerState.init.shared with manager := gate.catastrophic } }
    threads := [] }

theorem gate_init (tenantId : UInt64) : (init tenantId).shared.gate = TuckGate.new tenantId := rfl

end GateState

/-! ### The sequential gate -/

/-- A frame and its source, and the readings of the two clocks. -/
def TuckCall.ofRequest (call : (BindFrame × UInt64) × SystemTime × Instant) : TuckCall :=
  { frame := call.1.1, sourceId := call.1.2, clock := call.2.1, now := call.2.2 }

/-- One frame after another, each with the clock readings that its decision goes by. -/
def TuckGate.serve (sha256 : List UInt8 → Digest) (gate : TuckGate)
    (call : (BindFrame × UInt64) × SystemTime × Instant) : TuckDecision × TuckGate :=
  gate.decide sha256 (TuckCall.ofRequest call)

/-- The clock readings that a decision goes by when it takes effect.  The event of an override keeps
the time at which it was made. -/
def GateCall.reading (call : GateCall) (input : SystemTime × Instant) : SystemTime × Instant :=
  match call.phase with
  | .handling { phase := .sent event, .. } =>
      (some (event.timestamp, event.timestampNanos), input.2)
  | _ => input

/-! ### What a step can do -/

/-- A step of `call`, with what it has tested. -/
inductive GateMove (sha256 : List UInt8 → Digest) (shard : ReplayKey → ℕ) (s : GateState)
    (call : GateCall) (input : SystemTime × Instant) : GateShared → GateCall → Prop
  | noPfp (hfrom : call.phase = .called) (hpfp : call.frame.pfp = none) :
      GateMove sha256 shard s call input s.shared (call.goto (.decided .noSap))
  | handle (pfp : PfpHeader) (hfrom : call.phase = .called) (hpfp : call.frame.pfp = some pfp) :
      GateMove sha256 shard s call input s.shared
        (call.goto (.handling (FrameCall.start (TuckGate.frameRequest pfp call.frame))))
  | frame (c c' : FrameCall) (catastrophic : ManagerShared) (hfrom : call.phase = .handling c)
      (hframe : FrameCall.tick sha256 s.frames c input.1 = some (catastrophic, c')) :
      GateMove sha256 shard s call input { s.shared with catastrophic }
        (call.goto (call.afterFrame s.shared c'))
  | check (c c' : CheckCall) (checks : CheckShared) (hfrom : call.phase = .checking c)
      (hcheck : CheckMove shard s.checks c input.2 checks c') :
      GateMove sha256 shard s call input { s.shared with checks }
        (call.goto (GateCall.afterCheck c'))

section Steps

variable {sha256 : List UInt8 → Digest} {shard : ReplayKey → ℕ} {s s' : GateState}
  {call call' : GateCall} {input : SystemTime × Instant} {g : GateShared} {a : GateAction}

/-- **What a step can do.** -/
theorem GateCall.tick_cases (h : GateCall.tick sha256 shard s call input = some (g, call')) :
    GateMove sha256 shard s call input g call' := by
  unfold GateCall.tick at h
  dsimp only at h
  cases hphase : call.phase with
  | called =>
      rw [hphase] at h
      cases hpfp : call.frame.pfp with
      | none =>
          rw [hpfp] at h
          cases h
          exact .noPfp hphase hpfp
      | some pfp =>
          rw [hpfp] at h
          cases h
          exact .handle pfp hphase hpfp
  | handling c =>
      rw [hphase] at h
      dsimp only at h
      cases htick : FrameCall.tick sha256 s.frames c input.1 with
      | none =>
          rw [htick] at h
          cases h
      | some gc =>
          rw [htick] at h
          cases h
          exact .frame c gc.2 gc.1 hphase htick
  | checking c =>
      rw [hphase] at h
      dsimp only at h
      cases htick : CheckCall.tick shard s.checks c input.2 with
      | none =>
          rw [htick] at h
          cases h
      | some gc =>
          rw [htick] at h
          cases h
          exact .check c gc.2 gc.1 hphase (CheckCall.tick_moves htick)
  | decided decision =>
      rw [hphase] at h
      cases h

/-- A decision stays one about the same frame. -/
theorem GateMove.request_eq (h : GateMove sha256 shard s call input g call') :
    call'.request = call.request := by
  cases h <;> rfl

/-- A decision that takes a step is not made yet. -/
theorem GateMove.source_eq (h : GateMove sha256 shard s call input g call') :
    call.source = some call.sourceId ∧ call.outcome = none := by
  unfold GateCall.source GateCall.outcome
  cases h <;> simp [*]

/-- A decision goes by its source until it is made. -/
theorem GateCall.sourceId_of_source {sourceId : UInt64} (h : call.source = some sourceId) :
    call.sourceId = sourceId := by
  unfold GateCall.source at h
  cases hphase : call.phase with
  | called | handling c | checking c =>
      rw [hphase] at h
      exact Option.some.inj h
  | decided decision =>
      rw [hphase] at h
      cases h

/-! ### The invariant -/

/-- The frame is handed to the processor. -/
structure GateCall.Processed (call : GateCall) (pfp : PfpHeader) : Prop where
  pfp_eq : call.frame.pfp = some pfp
  not_override : pfp.isCatastrophicOverride = false

theorem GateCall.Processed.goto {pfp : PfpHeader} (h : call.Processed pfp) (phase : GatePhase) :
    (call.goto phase).Processed pfp := ⟨h.pfp_eq, h.not_override⟩

/-- A decision under way is at its frame, and what its check has found in the cache is still so. -/
def GateCall.Sound (g : GateShared) (call : GateCall) : Prop :=
  match call.phase with
  | .called => True
  | .handling c => c.Consistent ∧
      ∃ pfp, call.frame.pfp = some pfp ∧ c.request = TuckGate.frameRequest pfp call.frame
  | .checking c => c.UpToDate g.checks ∧ c.key = g.gate.processor.key call.sourceId ∧
      ∃ pfp sap, call.Processed pfp ∧ call.frame.sap = some sap ∧ pfp.replayEnable = true ∧
        c.seq = sap.seqCounter
  | .decided _ => True

namespace GateCall

theorem Sound.congr {g g' : GateShared} (h : call.Sound g) (htenant : g'.tenantId = g.tenantId)
    (hget : ∀ c, call.phase = .checking c →
      g'.checks.cache.entries.get? c.key = g.checks.cache.entries.get? c.key) : call.Sound g' := by
  unfold Sound at *
  cases hphase : call.phase with
  | called | decided decision => trivial
  | handling c =>
      rw [hphase] at h
      exact h
  | checking c =>
      rw [hphase] at h
      obtain ⟨hupToDate, hkey, hframe⟩ := h
      refine ⟨hupToDate.congr (hget c hphase), ?_, hframe⟩
      rw [hkey, FrameProcessor.key, FrameProcessor.key, GateShared.gate, GateShared.gate, htenant]

/-- The frame of a call of the manager that was no override. -/
theorem Sound.processed {c : FrameCall} (h : call.Sound g) (hfrom : call.phase = .handling c)
    (hoverride : CatastrophicManager.isCatastrophicOverride c.request.pfpBytes = false) :
    ∃ pfp, call.Processed pfp := by
  unfold Sound at h
  rw [hfrom] at h
  obtain ⟨-, pfp, hpfp, hrequest⟩ := h
  refine ⟨pfp, hpfp, ?_⟩
  rw [hrequest, TuckGate.frameRequest, CatastrophicManager.isCatastrophicOverride_encode]
    at hoverride
  exact hoverride

/-- The processor decides at once, or checks the number of the frame. -/
theorem Processed.process_cases {pfp : PfpHeader} (h : call.Processed pfp) (g : GateShared) :
    (call.process g = .decided .allow ∧ (call.frame.sap = none ∨ pfp.replayEnable = false)) ∨
      ∃ sap, call.process g =
          .checking (CheckCall.start (g.gate.processor.key call.sourceId, sap.seqCounter)) ∧
        call.frame.sap = some sap ∧ pfp.replayEnable = true := by
  rw [process]
  cases hsap : call.frame.sap with
  | none => exact Or.inl ⟨rfl, Or.inl rfl⟩
  | some sap =>
      dsimp only
      rw [FrameProcessor.replayEnable, h.pfp_eq, Option.map_some, Option.getD_some]
      cases hbit : pfp.replayEnable with
      | false => exact Or.inl ⟨rfl, Or.inr rfl⟩
      | true => exact Or.inr ⟨sap, rfl, rfl, rfl⟩

theorem Processed.sound_process {pfp : PfpHeader} (h : call.Processed pfp) (g : GateShared) :
    (call.goto (call.process g)).Sound g := by
  rcases h.process_cases g with ⟨hdecided, -⟩ | ⟨sap, hchecking, hsap, hbit⟩
  · rw [hdecided]
    trivial
  · rw [hchecking]
    exact ⟨trivial, rfl, pfp, sap, h.goto _, hsap, hbit, rfl⟩

/-- A step of the manager keeps a decision sound. -/
theorem Sound.afterFrame {c c' : FrameCall} {catastrophic : ManagerShared} (h : call.Sound g)
    (hfrom : call.phase = .handling c)
    (hstep : FrameStep sha256 g.catastrophic c catastrophic c') :
    (call.goto (call.afterFrame g c')).Sound g := by
  have hsound := h
  unfold Sound at hsound
  rw [hfrom] at hsound
  obtain ⟨hconsistent, hframe⟩ := hsound
  have hconsistent' := hconsistent.step hstep
  cases hstep with
  | ignore hcalled hoverride =>
      obtain ⟨pfp, hprocessed⟩ := h.processed hfrom hoverride
      exact hprocessed.sound_process g
  | trigger clock hcalled hoverride => exact ⟨hconsistent', hframe⟩
  | send event htriggered => exact ⟨hconsistent', hframe⟩
  | record event hsent => trivial

/-- A step of the check keeps a decision sound. -/
theorem Sound.afterCheck {c c' : CheckCall} {checks : CheckShared} (h : call.Sound s.shared)
    (hfrom : call.phase = .checking c) (hmove : CheckMove shard s.checks c input.2 checks c') :
    (call.goto (GateCall.afterCheck c')).Sound { s.shared with checks } := by
  unfold Sound at h
  rw [hfrom] at h
  obtain ⟨hupToDate, hkey, pfp, sap, hprocessed, hsap, hbit, hseq⟩ := h
  obtain ⟨hkey', hseq'⟩ := Prod.mk.inj hmove.request_eq
  have hafter : (call.goto (.checking c')).Sound { s.shared with checks } :=
    ⟨hmove.upToDate hupToDate, hkey'.trans hkey, pfp, sap, hprocessed.goto _, hsap, hbit,
      hseq'.trans hseq⟩
  rw [GateCall.afterCheck]
  cases hphase : c'.phase with
  | returned result => trivial
  | started | loaded | missed | counted | displaced oldEntry => exact hafter

end GateCall

namespace GateState

/-- The sources of the frames under way are different, the decisions are sound, and nothing is sent
on the event bus. -/
structure Exclusive (s : GateState) : Prop where
  alone : Threads.Alone GateCall.source s.threads
  sound : ∀ call ∈ s.threads, call.Sound s.shared
  closed : s.shared.catastrophic.manager.eventBus = CatastrophicEventBus.new.dropReceiver

/-- A decision begins only when no other frame of its source is under way. -/
def oneAtATime (s : GateState) : GateAction → Bool
  | .spawn request => s.threads.all fun call => call.source != some request.2
  | .advance _ _ => true

/-- An insertion of a new source would still pass the size test. -/
def roomAtInsertion (s : GateState) : GateAction → Bool
  | .spawn _ => true
  | .advance i _ =>
      match s.threads[i]? with
      | some { phase := .checking c, .. } => c.roomAtInsertion s.shared.checks
      | _ => true

/-- The step keeps both conditions. -/
def orderly (s : GateState) (a : GateAction) : Bool := s.oneAtATime a && s.roomAtInsertion a

theorem exclusive_init (tenantId : UInt64) : (init tenantId).Exclusive where
  alone := Threads.alone_nil
  sound call hcall := by cases hcall
  closed := rfl

/-- A decision takes a step that leaves the entries of the other sources alone. -/
theorem Exclusive.set (h : s.Exclusive) {i : ℕ} (hi : s.threads[i]? = some call)
    (hsource : call.source = some call.sourceId) (hsame : call'.sourceId = call.sourceId)
    (hsound : call'.Sound g) (htenant : g.tenantId = s.shared.tenantId)
    (hget : ∀ key : ReplayKey, key.sourceId ≠ call.sourceId →
      g.checks.cache.entries.get? key = s.shared.checks.cache.entries.get? key)
    (hclosed : g.catastrophic.manager.eventBus = CatastrophicEventBus.new.dropReceiver) :
    Exclusive { shared := g, threads := s.threads.set i call' } := by
  refine ⟨h.alone.set hi fun sourceId hsource' => ?_, fun other hother => ?_, hclosed⟩
  · rw [hsource, ← hsame, GateCall.sourceId_of_source hsource']
  · obtain ⟨l, hl⟩ := List.mem_iff_getElem?.1 hother
    by_cases hil : i = l
    · subst hil
      obtain ⟨hlt, -⟩ := List.getElem?_eq_some_iff.1 hi
      cases Option.some.inj ((List.getElem?_set_self hlt).symm.trans hl)
      exact hsound
    · dsimp only at hl
      rw [List.getElem?_set_ne hil] at hl
      have hold := h.sound other (List.mem_of_getElem? hl)
      refine hold.congr htenant fun c hphase => hget c.key ?_
      -- it is a check of another source
      unfold GateCall.Sound at hold
      rw [hphase] at hold
      obtain ⟨-, hkey, -⟩ := hold
      rw [hkey]
      intro hsourceId
      refine h.alone.ne hil hi hl hsource ?_
      rw [GateCall.source, hphase]
      exact congrArg some hsourceId

/-- Nothing is sent on a closed bus. -/
theorem manager_send_of_closed {catastrophic : ManagerShared}
    (hclosed : catastrophic.manager.eventBus = CatastrophicEventBus.new.dropReceiver)
    (event : CatastrophicEvent) : (catastrophic.send event).manager = catastrophic.manager := by
  have hsend : (catastrophic.manager.eventBus.send event).2 = catastrophic.manager.eventBus := by
    rw [hclosed]
    rfl
  rw [ManagerShared.manager_send, hsend]

/-- A step of the manager leaves the bus closed. -/
theorem closed_of_frameStep {catastrophic catastrophic' : ManagerShared} {c c' : FrameCall}
    (h : FrameStep sha256 catastrophic c catastrophic' c')
    (hclosed : catastrophic.manager.eventBus = CatastrophicEventBus.new.dropReceiver) :
    catastrophic'.manager.eventBus = CatastrophicEventBus.new.dropReceiver := by
  cases h with
  | ignore | trigger | record => exact hclosed
  | send event htriggered =>
      rw [manager_send_of_closed hclosed]
      exact hclosed

/-- **What one step preserves**, if it is orderly. -/
theorem Exclusive.step (h : s.Exclusive) (horderly : s.orderly a = true)
    (hstep : GateState.step sha256 shard s a = some s') : s'.Exclusive := by
  rcases Threads.step_cases hstep with
    ⟨request, rfl, rfl⟩ | ⟨i, input, call, g, call', rfl, hi, htick, rfl⟩
  · refine ⟨h.alone.append fun call hcall sourceId hsource hnew => ?_, fun call hcall => ?_,
      h.closed⟩
    · cases hnew
      have hone : s.oneAtATime (.spawn request) = true := (Bool.and_eq_true_iff.1 horderly).1
      have hother : (call.source != some request.2) = true := List.all_eq_true.1 hone call hcall
      rw [hsource] at hother
      exact absurd rfl (bne_iff_ne.1 hother)
    · rcases List.mem_append.1 hcall with hcall | hcall
      · exact h.sound call hcall
      · cases List.mem_singleton.1 hcall
        trivial
  · have hmove := GateCall.tick_cases htick
    obtain ⟨hsource, -⟩ := hmove.source_eq
    have hsame : call'.sourceId = call.sourceId := congrArg Prod.snd hmove.request_eq
    have hsound := h.sound call (List.mem_of_getElem? hi)
    cases hmove with
    | noPfp hfrom hpfp => exact h.set hi hsource hsame trivial rfl (fun _ _ => rfl) h.closed
    | handle pfp hfrom hpfp =>
        exact h.set hi hsource hsame ⟨trivial, pfp, hpfp, rfl⟩ rfl (fun _ _ => rfl) h.closed
    | frame c c' catastrophic hfrom hframe =>
        have hframeStep := FrameCall.tick_cases hframe
        refine h.set hi hsource hsame ?_ rfl (fun _ _ => rfl)
          (closed_of_frameStep hframeStep h.closed)
        exact (hsound.afterFrame hfrom hframeStep).congr rfl fun _ _ => rfl
    | check c c' checks hfrom hcheck =>
        refine h.set hi hsource hsame (hsound.afterCheck hfrom hcheck) rfl
          (fun key hkey => hcheck.get?_of_ne ?_) h.closed
        unfold GateCall.Sound at hsound
        rw [hfrom] at hsound
        obtain ⟨-, hown, -⟩ := hsound
        rw [hown]
        rintro rfl
        exact hkey rfl

/-! ### Every step is explained -/

/-- A step is explained by the sequential gate. -/
abbrev Explained (sha256 : List UInt8 → Digest) (s : GateState) (call : GateCall)
    (input : SystemTime × Instant) (g : GateShared) (call' : GateCall) : Prop :=
  Threads.Explained (TuckGate.serve sha256) GateShared.gate GateCall.outcome GateCall.request
    GateCall.reading s call input g call'

/-- The sequential gate hands the frame to the processor. -/
theorem serve_of_processed {pfp : PfpHeader} (h : call.Processed pfp) (gate : TuckGate)
    (input : SystemTime × Instant) :
    gate.serve sha256 (call.request, input) =
      (if (gate.processor.processFrame call.frame call.sourceId input.2).1.isRejected then .reject
        else .allow,
        { gate with
          processor := (gate.processor.processFrame call.frame call.sourceId input.2).2 }) :=
  TuckGate.decide_of_processed h.pfp_eq h.not_override

/-- The processor decides at once as the sequential gate does, or goes on to check the number. -/
theorem explained_process {pfp : PfpHeader} (h : call.Processed pfp) (hnone : call.outcome = none)
    (input : SystemTime × Instant) :
    Explained sha256 s call input s.shared (call.goto (call.process s.shared)) := by
  rcases h.process_cases s.shared with ⟨hdecided, hunchecked⟩ | ⟨sap, hchecking, -⟩
  · have hanswer : (call.goto (call.process s.shared)).outcome = some .allow := by
      rw [hdecided]
      rfl
    refine .of_settled rfl hnone hanswer ?_
    obtain ⟨hallowed, hsame⟩ := TuckGate.processFrame_of_unchecked
      (p := s.shared.gate.processor) h.pfp_eq hunchecked call.sourceId (call.reading input).2
    rw [serve_of_processed h, hallowed, hsame]
    rfl
  · refine .of_quiet rfl ?_ rfl
    rw [hchecking]
    exact hnone.symm

/-- The event of an override is recorded. -/
theorem explained_record {c : FrameCall} {event : CatastrophicEvent} (h : call.Sound s.shared)
    (hclosed : s.shared.catastrophic.manager.eventBus = CatastrophicEventBus.new.dropReceiver)
    (hfrom : call.phase = .handling c) (hsent : c.phase = .sent event)
    (input : SystemTime × Instant) :
    Explained sha256 s call input
      { s.shared with catastrophic := s.shared.catastrophic.record sha256 event }
      (call.goto (.decided .catastrophicOverride)) := by
  unfold GateCall.Sound at h
  rw [hfrom] at h
  obtain ⟨hconsistent, pfp, hpfp, hrequest⟩ := h
  unfold FrameCall.Consistent at hconsistent
  rw [hsent] at hconsistent
  obtain ⟨hoverride, clock, hevent⟩ := hconsistent
  -- the event keeps the time at which it was made
  have hreading : (call.reading input).1 = some (event.timestamp, event.timestampNanos) := by
    obtain ⟨request, phase⟩ := c
    obtain rfl : phase = .sent event := hsent
    rw [GateCall.reading, hfrom]
  have hmade : CatastrophicEvent.new c.request
      (some (event.timestamp, event.timestampNanos)) = event := by
    rw [hevent]
    rfl
  have hpfpOverride : pfp.isCatastrophicOverride = true := by
    rw [hrequest, TuckGate.frameRequest, CatastrophicManager.isCatastrophicOverride_encode]
      at hoverride
    exact hoverride
  rw [hrequest] at hoverride hmade
  have hnone : call.outcome = none := by rw [GateCall.outcome, hfrom]
  have hserve : s.shared.gate.serve sha256 (call.request, call.reading input) =
      (.catastrophicOverride,
        { s.shared.gate with
          catastrophic := (s.shared.catastrophic.manager.handleFrame sha256
            (TuckGate.frameRequest pfp call.frame) (call.reading input).1).2 }) :=
    TuckGate.decide_of_override hpfp hpfpOverride
  refine .of_settled rfl hnone rfl ?_
  rw [hserve, hreading, TuckGate.handleFrame_of_closed hclosed hoverride, hmade]
  rfl

/-- The check of a number. -/
theorem explained_check {c c' : CheckCall} {checks : CheckShared} (h : call.Sound s.shared)
    (hfrom : call.phase = .checking c) (hroom : c.roomAtInsertion s.shared.checks = true)
    (hmove : CheckMove shard s.checks c input.2 checks c') :
    Explained sha256 s call input { s.shared with checks }
      (call.goto (GateCall.afterCheck c')) := by
  have hnone : call.outcome = none := by rw [GateCall.outcome, hfrom]
  unfold GateCall.Sound at h
  rw [hfrom] at h
  obtain ⟨hupToDate, hkey, pfp, sap, hprocessed, hsap, hbit, hseq⟩ := h
  rcases hmove.serves hupToDate hroom with ⟨hbusy, hcache⟩ | ⟨result, hphase, hcheck⟩
  · refine .of_quiet rfl ?_ ?_
    · rw [hnone, GateCall.afterCheck]
      rw [CheckCall.isReturned] at hbusy
      cases hphase : c'.phase <;> simp_all [GateCall.outcome, GateCall.goto]
    · have hcache : checks.cache = s.shared.checks.cache := hcache
      rw [GateShared.gate, GateShared.gate, hcache]
  · have hcheck : s.shared.gate.processor.replayCache.checkAndUpdate
        (s.shared.gate.processor.key call.sourceId) sap.seqCounter input.2 =
          (result, checks.cache) := by
      rw [← hkey, ← hseq]
      exact hcheck
    have hreading : call.reading input = input := by rw [GateCall.reading, hfrom]
    have hanswer : (call.goto (GateCall.afterCheck c')).outcome =
        some (if (FrameProcessResult.ofCheck result).isRejected then .reject else .allow) := by
      rw [GateCall.afterCheck, hphase]
      rfl
    refine .of_settled rfl hnone hanswer ?_
    rw [serve_of_processed hprocessed, hreading,
      TuckGate.processFrame_of_sap hprocessed.pfp_eq hsap hbit, hcheck]
    rfl

/-- **Every step is explained.** -/
theorem Exclusive.explained (h : s.Exclusive) {i : ℕ}
    (horderly : s.orderly (.advance i input) = true) (hi : s.threads[i]? = some call)
    (htick : GateCall.tick sha256 shard s call input = some (g, call')) :
    Explained sha256 s call input g call' := by
  have hsound := h.sound call (List.mem_of_getElem? hi)
  have hmove := GateCall.tick_cases htick
  obtain ⟨-, hnone⟩ := hmove.source_eq
  cases hmove with
  | noPfp hfrom hpfp =>
      refine .of_settled rfl hnone rfl ?_
      rw [TuckGate.serve]
      exact TuckGate.decide_of_noPfp hpfp
  | handle pfp hfrom hpfp => exact .of_quiet rfl hnone.symm rfl
  | frame c c' catastrophic hfrom hframe =>
      cases FrameCall.tick_cases hframe with
      | ignore hcalled hoverride =>
          obtain ⟨pfp, hprocessed⟩ := hsound.processed hfrom hoverride
          exact explained_process hprocessed hnone input
      | trigger clock hcalled hoverride => exact .of_quiet rfl hnone.symm rfl
      | send event htriggered =>
          refine .of_quiet rfl hnone.symm ?_
          have hsame : (s.frames.shared.send event).manager = s.shared.catastrophic.manager :=
            manager_send_of_closed h.closed event
          rw [GateShared.gate, GateShared.gate, hsame]
      | record event hsent => exact explained_record hsound h.closed hfrom hsent input
  | check c c' checks hfrom hcheck =>
      refine explained_check hsound hfrom ?_ hcheck
      have hroom : s.roomAtInsertion (.advance i input) = true :=
        (Bool.and_eq_true_iff.1 horderly).2
      rw [roomAtInsertion, hi] at hroom
      obtain ⟨frame, sourceId, phase⟩ := call
      obtain rfl : phase = .checking c := hfrom
      exact hroom

/-! ### Runs -/

/-- Every step of the run is orderly. -/
abbrev Orderly (sha256 : List UInt8 → Digest) (shard : ReplayKey → ℕ) (s : GateState)
    (as : List GateAction) : Prop :=
  Runs.Guarded (GateState.step sha256 shard) (fun s a => s.orderly a = true) s as

/-- The frames of a run in the order in which the decisions take effect, each with its thread and
with the clock readings that its decision goes by. -/
abbrev effects (sha256 : List UInt8 → Digest) (shard : ReplayKey → ℕ) (s : GateState)
    (as : List GateAction) : List (ℕ × (BindFrame × UInt64) × SystemTime × Instant) :=
  Threads.effects GateCall.start (GateCall.tick sha256 shard) GateCall.outcome GateCall.request
    GateCall.reading s as

/-- The decision with a given number, when it is made. -/
abbrev decisionAt (s : GateState) (i : ℕ) : Option TuckDecision :=
  Threads.outcomeAt GateCall.outcome s i

theorem linearized_of_run {tenantId : UInt64} {actions : List GateAction} {t : GateState}
    (horderly : Orderly sha256 shard (init tenantId) actions)
    (hrun : Runs.run (GateState.step sha256 shard) (init tenantId) actions = some t) :
    Threads.Linearized (TuckGate.serve sha256) GateShared.gate GateCall.outcome GateCall.request
      (init tenantId) t (effects sha256 shard (init tenantId) actions) :=
  Threads.linearized_of_explained (P := Exclusive) (fun _ => rfl)
    (fun _ _ _ h hguard hstep => h.step hguard hstep)
    (fun _ _ _ _ _ _ h hguard hi htick => h.explained hguard hi htick)
    (exclusive_init tenantId) horderly hrun

end GateState

end Steps

namespace GateState

/-- **Decisions at the same time are decisions in the order in which they take effect.**  Take any
run of decisions on a new gate in which a decision begins only when no other frame of its source is
under way, and in which every insertion still finds room.  Each decision that is made is one about
its own frame, and takes effect once.  In the order in which they take effect, the decisions are
those of the gate that looks back at everything that it has let through, and the gate afterwards,
with its cache and its audit log, is the one that decides about the same frames one at a time.  At
every moment of the run the decisions that have taken effect are those that have been made, so the
order keeps to that of decisions one of which is made before the other begins. -/
theorem run_oneByOne (sha256 : List UInt8 → Digest) (shard : ReplayKey → ℕ) (tenantId : UInt64)
    (actions : List GateAction) (t : GateState)
    (horderly : Orderly sha256 shard (init tenantId) actions)
    (hrun : Runs.run (GateState.step sha256 shard) (init tenantId) actions = some t) :
    let es := effects sha256 shard (init tenantId) actions
    let calls := es.map fun e => TuckCall.ofRequest e.2
    ((es.map Prod.fst).Nodup ∧ ∀ e ∈ es, t.threads[e.1]?.map GateCall.request = some e.2.1) ∧
      es.map (fun e => t.decisionAt e.1) =
        ((Transcript.transcript TuckLedger.decide [] calls).map Exchange.answer).map some ∧
      t.shared.gate = Transcript.final (TuckGate.decide sha256) (TuckGate.new tenantId) calls ∧
      ∀ as bs u, actions = as ++ bs →
        Runs.run (GateState.step sha256 shard) (init tenantId) as = some u →
        es = effects sha256 shard (init tenantId) as ++ effects sha256 shard u bs ∧
          ∀ i, i ∈ (effects sha256 shard (init tenantId) as).map Prod.fst ↔
            (u.decisionAt i).isSome = true := by
  intro es calls
  have h := linearized_of_run horderly hrun
  obtain ⟨hfinal, hanswers⟩ := Transcript.answers_comp (TuckGate.decide sha256)
    TuckCall.ofRequest (TuckGate.new tenantId) (es.map Prod.snd)
  have hcalls : (es.map Prod.snd).map TuckCall.ofRequest = calls := List.map_map
  rw [hcalls] at hfinal hanswers
  refine ⟨⟨h.nodup, h.requests⟩, ?_, h.final.trans hfinal, ?_⟩
  · rw [← (TuckGate.remembers_final sha256 tenantId calls).1, ← hanswers]
    exact h.map_outcomeAt
  · rintro as bs u rfl hu
    have has := ((Runs.guarded_append _ _).1 horderly).1
    refine ⟨Threads.effects_append hu bs, fun i => ?_⟩
    rw [(linearized_of_run has hu).mem_iff i]
    exact and_iff_right rfl

/-- A hard override and a frame that is checked, their steps in turn. -/
def crossedDecisions : List GateAction :=
  [.spawn (BindFrame.overrideFrame, 100), .spawn (BindFrame.sampleFrame, 7),
    .advance 0 (none, 0), .advance 1 (none, 0), .advance 0 (some (1700000000, 250), 1),
    .advance 1 (none, 2), .advance 0 (none, 3), .advance 1 (none, 4), .advance 1 (none, 5),
    .advance 0 (none, 6), .advance 1 (none, 7)]

/-- The state afterwards. -/
def afterCrossedDecisions : GateState :=
  (Runs.run (GateState.step sampleSha256 fun _ => 0) (init 1) crossedDecisions).get
    (by decide +kernel)

/-- The override is recorded first, with the time at which its event was made. -/
theorem run_oneByOne_crossedDecisions :
    afterCrossedDecisions.shared.gate =
      Transcript.final (TuckGate.decide sampleSha256) (TuckGate.new 1)
        ((effects sampleSha256 (fun _ => 0) (init 1) crossedDecisions).map fun e =>
          TuckCall.ofRequest e.2) :=
  (run_oneByOne sampleSha256 (fun _ => 0) 1 crossedDecisions afterCrossedDecisions
    (by decide +kernel) (Option.some_get _).symm).2.2.1

end GateState

end Bind19
