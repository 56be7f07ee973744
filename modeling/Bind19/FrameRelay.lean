/-
**Frames that are parsed and written again on their way.**

Between the sender and the gate a frame may be parsed and written again, once or many times.  The
first time clears the reserved bits of its layers, and with those of the PFP the request for a
version negotiation; after that nothing changes any more.  A byte string that is not a frame goes no
further.

The gate is not affected.  It looks at the fields of the two layers only, and what it hands to the
manager of hard overrides it has written again itself.  So it takes the same decisions, and has the
same numbers on record and the same entries in its log, whichever way the frames have come.

Nor does it matter to the gate if the frames come one by one or on a stream that is cut anyhow.

Main definitions:

* `Bind19.BindFrame.relays` — a byte string is parsed and written any number of times;
* `Bind19.BindFrame.LooksSame` — the gate cannot tell two frames apart;
* `Bind19.TuckDelivery`, `Bind19.TuckGate.receive` — a byte string reaches the gate.

Main results:

* `Bind19.BindFrame.relays_succ` — **what arrives at the other end**;
* `Bind19.TuckGate.decide_of_looksSame` — what the gate looks at;
* `Bind19.TuckGate.run_relayed` — **the way that frames have come makes no difference to the gate**;
* `Bind19.TuckGate.run_streamed` — **nor does a stream between the sender and the gate**.
-/

import Bind19.FrameReencoding
import Bind19.FrameStream
import Bind19.Tuck

set_option relaxedAutoImplicit false
set_option autoImplicit false

namespace Bind19

namespace BindFrame

variable {buf bytes : List UInt8} {f : BindFrame} {e : FrameError} {hops : ℕ}

/-! ### Relays -/

/-- A byte string is parsed and written again. -/
def relay (buf : List UInt8) : Except FrameError (List UInt8) := (decode buf).map encode

/-- A byte string is parsed and written again any number of times. -/
def relays : ℕ → List UInt8 → Except FrameError (List UInt8)
  | 0, buf => .ok buf
  | hops + 1, buf =>
      match relay buf with
      | .error e => .error e
      | .ok bytes => relays hops bytes

theorem relay_of_decode (h : decode buf = .ok f) : relay buf = .ok f.encode := by
  rw [relay, h]
  rfl

/-- The encoder does not look at the reserved bits. -/
theorem encode_withoutReserved (f : BindFrame) : f.withoutReserved.encode = f.encode := by
  rw [encode, encode, pfpBytes, pfpBytes, withoutReserved]
  cases f.pfp <;> rfl

/-- What was written is parsed into the frame without its reserved bits. -/
theorem decode_encode_of_decode (h : decode buf = .ok f) :
    decode f.encode = .ok f.withoutReserved := by
  have hdecode := decode_encode_append (announced_of_decode h) (frameType_of_decode h) []
  rwa [List.append_nil, normalize_of_decode h] at hdecode

/-- What was written once is written the same way again. -/
theorem relays_encode (h : decode buf = .ok f) (hops : ℕ) :
    relays hops f.encode = .ok f.encode := by
  induction hops with
  | zero => rfl
  | succ hops ih =>
      rw [relays, relay_of_decode (decode_encode_of_decode h)]
      dsimp only
      rw [encode_withoutReserved, ih]

theorem relays_of_decode (h : decode buf = .ok f) (hops : ℕ) :
    relays (hops + 1) buf = .ok f.encode := by
  rw [relays, relay_of_decode h]
  exact relays_encode h hops

theorem relays_of_error (h : decode buf = .error e) (hops : ℕ) :
    relays (hops + 1) buf = .error e := by
  rw [relays, relay, h]
  rfl

theorem hasUnknownReserved_withoutReserved (f : BindFrame) :
    ∀ pfp, f.withoutReserved.pfp = some pfp → pfp.hasUnknownReserved = false := by
  intro pfp hpfp
  rw [withoutReserved, Option.map_eq_some_iff] at hpfp
  obtain ⟨pfp, -, rfl⟩ := hpfp
  rfl

/-- **What arrives at the other end.**  However often a byte string is parsed and written again,
once at least: if it is not a frame, nothing arrives, for the reason that the first parser gives.
If it is one, what arrives is the frame and nothing after it, with the reserved bits of both layers
cleared.  It is parsed into the same frame but for the reserved bits of the PFP: the SAP is the
same, and there is no request for a version negotiation any more. -/
theorem relays_succ (hops : ℕ) (buf : List UInt8) :
    match decode buf with
    | .error e => relays (hops + 1) buf = .error e
    | .ok f =>
        relays (hops + 1) buf = .ok (clearReserved (buf.take f.header.totalFrameLength)) ∧
          decode (clearReserved (buf.take f.header.totalFrameLength)) = .ok f.withoutReserved ∧
          f.withoutReserved.sap = f.sap ∧
          ∀ pfp, f.withoutReserved.pfp = some pfp → pfp.hasUnknownReserved = false := by
  cases h : decode buf with
  | error e => exact relays_of_error h hops
  | ok f =>
      dsimp only
      rw [← encode_of_decode h]
      exact ⟨relays_of_decode h hops, decode_encode_of_decode h, rfl,
        hasUnknownReserved_withoutReserved f⟩

/-- What arrives is parsed into the frame, or into the frame without its reserved bits. -/
theorem decode_of_relays (h : decode buf = .ok f) (hrelays : relays hops buf = .ok bytes) :
    decode bytes = .ok f ∨ decode bytes = .ok f.withoutReserved := by
  cases hops with
  | zero =>
      cases hrelays
      exact Or.inl h
  | succ hops =>
      rw [relays_of_decode h] at hrelays
      cases hrelays
      exact Or.inr (decode_encode_of_decode h)

end BindFrame

/-! ### What the gate looks at -/

/-- A PFP with its reserved bits cleared. -/
def PfpHeader.clearReserved (pfp : PfpHeader) : PfpHeader := { pfp with reserved := 0 }

/-- Two frames have the same PFP but for its reserved bits, and the same counter. -/
structure BindFrame.LooksSame (f f' : BindFrame) : Prop where
  pfp : f'.pfp.map PfpHeader.clearReserved = f.pfp.map PfpHeader.clearReserved
  seqCounter : f'.sap.map SapHeader.seqCounter = f.sap.map SapHeader.seqCounter

theorem BindFrame.looksSame_withoutReserved (f : BindFrame) : f.LooksSame f.withoutReserved where
  pfp := by
    rw [withoutReserved]
    cases f.pfp <;> rfl
  seqCounter := rfl

theorem BindFrame.looksSame_normalize (f : BindFrame) : f.LooksSame f.normalize where
  pfp := by
    rw [normalize]
    cases f.pfp <;> rfl
  seqCounter := by
    rw [normalize]
    cases f.sap <;> rfl

/-- The layers of two frames that look the same. -/
theorem BindFrame.LooksSame.pfp_cases {f f' : BindFrame} (h : f.LooksSame f') :
    (f.pfp = none ∧ f'.pfp = none) ∨
      ∃ pfp pfp', f.pfp = some pfp ∧ f'.pfp = some pfp' ∧
        pfp'.clearReserved = pfp.clearReserved := by
  have hpfp := h.pfp
  cases hf : f.pfp with
  | none =>
      rw [hf, Option.map_none, Option.map_eq_none_iff] at hpfp
      exact Or.inl ⟨rfl, hpfp⟩
  | some pfp =>
      rw [hf, Option.map_some, Option.map_eq_some_iff] at hpfp
      obtain ⟨pfp', hf', hsame⟩ := hpfp
      exact Or.inr ⟨pfp, pfp', rfl, hf', hsame⟩

theorem FrameProcessor.replayEnable_of_looksSame {f f' : BindFrame} (h : f.LooksSame f') :
    replayEnable f' = replayEnable f := by
  rw [replayEnable, replayEnable]
  rcases h.pfp_cases with ⟨hf, hf'⟩ | ⟨pfp, pfp', hf, hf', hsame⟩
  · rw [hf, hf']
  · have hbit : pfp'.clearReserved.replayEnable = pfp.clearReserved.replayEnable := by rw [hsame]
    rw [hf, hf']
    exact hbit

/-- The processor looks at the Replay-Enable bit and the counter. -/
theorem FrameProcessor.processFrame_of_looksSame {f f' : BindFrame} (h : f.LooksSame f')
    (p : FrameProcessor) (sourceId : UInt64) (now : Instant) :
    p.processFrame f' sourceId now = p.processFrame f sourceId now := by
  have hseq := h.seqCounter
  rw [processFrame, processFrame, replayEnable_of_looksSame h]
  cases hsap : f.sap with
  | none =>
      rw [hsap, Option.map_none, Option.map_eq_none_iff] at hseq
      rw [hseq]
  | some sap =>
      rw [hsap, Option.map_some, Option.map_eq_some_iff] at hseq
      obtain ⟨sap', hsap', hcounter⟩ := hseq
      rw [hsap']
      dsimp only
      rw [hcounter]

/-- The gate looks at nothing else. -/
theorem TuckGate.decide_of_looksSame {sha256 : List UInt8 → Digest} {f f' : BindFrame}
    (h : f.LooksSame f') (gate : TuckGate) (call : TuckCall) :
    gate.decide sha256 { call with frame := f' } = gate.decide sha256 { call with frame := f } := by
  rw [decide, decide]
  dsimp only
  rcases h.pfp_cases with ⟨hf, hf'⟩ | ⟨pfp, pfp', hf, hf', hsame⟩
  · rw [hf, hf']
  · -- the request is the same, for the encoder does not look at the reserved bits
    have hencode : pfp'.clearReserved.encode = pfp.clearReserved.encode := by rw [hsame]
    have hrequest : frameRequest pfp' f' = frameRequest pfp f := by
      rw [frameRequest, frameRequest, h.seqCounter, show pfp'.encode = pfp.encode from hencode]
    rw [hf, hf']
    dsimp only
    rw [hrequest, FrameProcessor.processFrame_of_looksSame h]

/-! ### The gate -/

/-- A byte string reaches the gate, with its source and the readings of the two clocks. -/
structure TuckDelivery where
  bytes : List UInt8
  sourceId : UInt64
  clock : SystemTime
  now : Instant

namespace TuckDelivery

/-- The call that a delivery leads to when its bytes are parsed into a frame. -/
def call (d : TuckDelivery) (frame : BindFrame) : TuckCall :=
  { frame, sourceId := d.sourceId, clock := d.clock, now := d.now }

/-- The delivery after its bytes were parsed and written again so many times, if it arrives. -/
def relayed (hops : ℕ) (d : TuckDelivery) : Option TuckDelivery :=
  (BindFrame.relays hops d.bytes).toOption.map fun bytes => { d with bytes }

end TuckDelivery

namespace TuckGate

variable {sha256 : List UInt8 → Digest} {gate : TuckGate} {d d' : TuckDelivery} {hops : ℕ}
  {frame : BindFrame}

/-- A byte string is parsed, and the gate decides about the frame. -/
def receive (sha256 : List UInt8 → Digest) (gate : TuckGate) (d : TuckDelivery) :
    Except FrameError TuckDecision × TuckGate :=
  match BindFrame.decode d.bytes with
  | .error e => (.error e, gate)
  | .ok frame =>
      let (decision, gate) := gate.decide sha256 (d.call frame)
      (.ok decision, gate)

theorem receive_of_decode (h : BindFrame.decode d.bytes = .ok frame) :
    gate.receive sha256 d =
      (.ok (gate.decide sha256 (d.call frame)).1, (gate.decide sha256 (d.call frame)).2) := by
  rw [receive, h]

theorem receive_of_error {e : FrameError} (h : BindFrame.decode d.bytes = .error e) :
    gate.receive sha256 d = (.error e, gate) := by
  rw [receive, h]

/-- The gate does not look at the reserved bits. -/
theorem decide_withoutReserved (gate : TuckGate) (d : TuckDelivery) (f : BindFrame) :
    gate.decide sha256 (d.call f.withoutReserved) = gate.decide sha256 (d.call f) :=
  decide_of_looksSame f.looksSame_withoutReserved gate (d.call f)

/-- A delivery that arrives has the effect that it would have had without the detour. -/
theorem receive_of_relayed (h : d.relayed hops = some d') :
    gate.receive sha256 d' = gate.receive sha256 d := by
  rw [TuckDelivery.relayed, Option.map_eq_some_iff] at h
  obtain ⟨bytes, hbytes, rfl⟩ := h
  have hrelays : BindFrame.relays hops d.bytes = .ok bytes := by
    cases hrelays : BindFrame.relays hops d.bytes with
    | error e =>
        rw [hrelays] at hbytes
        cases hbytes
    | ok bytes' =>
        rw [hrelays] at hbytes
        cases hbytes
        rfl
  cases hdecode : BindFrame.decode d.bytes with
  | error e =>
      cases hops with
      | zero =>
          cases hrelays
          rfl
      | succ hops =>
          rw [BindFrame.relays_of_error hdecode] at hrelays
          cases hrelays
  | ok frame =>
      rw [receive_of_decode hdecode]
      rcases BindFrame.decode_of_relays hdecode hrelays with hsame | hcleared
      · exact receive_of_decode hsame
      · rw [receive_of_decode hcleared]
        exact congrArg (fun answer => (Except.ok answer.1, answer.2))
          (decide_withoutReserved gate d frame)

/-- A delivery that does not arrive would not have been a frame. -/
theorem receive_of_lost (h : d.relayed hops = none) :
    (gate.receive sha256 d).2 = gate ∧ (gate.receive sha256 d).1.toOption = none := by
  cases hdecode : BindFrame.decode d.bytes with
  | error e =>
      rw [receive_of_error hdecode]
      exact ⟨rfl, rfl⟩
  | ok frame =>
      rw [TuckDelivery.relayed] at h
      cases hops with
      | zero => cases h
      | succ hops =>
          rw [BindFrame.relays_of_decode hdecode] at h
          cases h

/-- **The way that frames have come makes no difference to the gate.**  Take any gate and any list
of byte strings for it.  Let each of them be parsed and written again any number of times on its
way, some of them not at all; those that are not frames need not arrive.  The gate takes the same
decisions, in the same order, and is left in the same state, with the same numbers on record and the
same log. -/
theorem run_relayed (sha256 : List UInt8 → Digest) (gate : TuckGate)
    (paths : List (ℕ × TuckDelivery)) :
    let direct := paths.map Prod.snd
    let relayed := paths.filterMap fun path => path.2.relayed path.1
    Transcript.final (receive sha256) gate relayed = Transcript.final (receive sha256) gate direct ∧
      (Transcript.transcript (receive sha256) gate relayed).filterMap
          (fun e => e.answer.toOption) =
        (Transcript.transcript (receive sha256) gate direct).filterMap
          fun e => e.answer.toOption := by
  intro direct relayed
  induction paths generalizing gate with
  | nil => exact ⟨rfl, rfl⟩
  | cons path paths ih =>
      obtain ⟨hops, d⟩ := path
      obtain ⟨hfinal, hanswers⟩ := ih (gate.receive sha256 d).2
      cases harrives : d.relayed hops with
      | some d' =>
          have hrelayed : relayed = d' :: paths.filterMap fun path => path.2.relayed path.1 :=
            List.filterMap_cons_some harrives
          have hsame : gate.receive sha256 d' = gate.receive sha256 d := receive_of_relayed harrives
          rw [hrelayed, Transcript.final_cons, Transcript.transcript_cons, hsame]
          refine ⟨hfinal, ?_⟩
          change _ = ({ before := gate, call := d, answer := (gate.receive sha256 d).1 } ::
            Transcript.transcript (receive sha256) (gate.receive sha256 d).2
              (paths.map Prod.snd)).filterMap _
          rw [List.filterMap_cons, List.filterMap_cons, hanswers]
      | none =>
          have hrelayed : relayed = paths.filterMap fun path => path.2.relayed path.1 :=
            List.filterMap_cons_none harrives
          obtain ⟨hgate, hanswer⟩ : (gate.receive sha256 d).2 = gate ∧
              (gate.receive sha256 d).1.toOption = none := receive_of_lost harrives
          rw [hgate] at hfinal hanswers
          rw [hrelayed]
          refine ⟨hfinal.trans ?_, hanswers.trans ?_⟩
          · change _ = Transcript.final (receive sha256) (gate.receive sha256 d).2 _
            rw [hgate]
          · change _ = ({ before := gate, call := d, answer := (gate.receive sha256 d).1 } ::
              Transcript.transcript (receive sha256) (gate.receive sha256 d).2
                (paths.map Prod.snd)).filterMap _
            rw [hgate]
            exact (List.filterMap_cons_none (by exact hanswer)).symm

/-! ### Streams -/

/-- **A stream between the sender and the gate makes no difference.**  Take any gate and any calls
of it.  Let their frames be sent on a stream one after the other, each with a header that announces
what follows it, and a part of one more, and let the stream be cut into any pieces.  The gate
decides about the frames that are read from the stream as it would about those that were sent, and
is left in the same state, with the same numbers on record and the same log. -/
theorem run_streamed (sha256 : List UInt8 → Digest) (gate : TuckGate) (calls : List TuckCall)
    (hcalls : ∀ call ∈ calls, call.frame.Sendable) (last : BindFrame) (hlast : last.Sendable)
    (k : ℕ) (hk : k < last.encode.length) (pieces : List (List UInt8))
    (hpieces : pieces.flatten =
      (calls.map TuckCall.frame).flatMap BindFrame.encode ++ last.encode.take k) :
    let frames := (pieces.foldl BindFrame.framer.feed .start).items
    let received := List.zipWith (fun (call : TuckCall) frame => { call with frame }) calls frames
    frames.length = calls.length ∧
      Transcript.final (decide sha256) gate received =
        Transcript.final (decide sha256) gate calls ∧
      (Transcript.transcript (decide sha256) gate received).map Exchange.answer =
        (Transcript.transcript (decide sha256) gate calls).map Exchange.answer := by
  intro frames received
  have hframes : frames = (calls.map TuckCall.frame).map BindFrame.normalize := by
    have hread := BindFrame.foldl_feed_frames (calls.map TuckCall.frame)
      (List.forall_mem_map.2 hcalls) last hlast k hk pieces hpieces
    exact congrArg Reading.items hread
  have hreceived : received =
      calls.map fun call => { call with frame := call.frame.normalize } := by
    change List.zipWith _ calls frames = _
    rw [hframes, List.map_map, List.zipWith_map_right, List.zipWith_self]
    rfl
  have hsame : ∀ (gate : TuckGate) (call : TuckCall),
      gate.decide sha256 { call with frame := call.frame.normalize } = gate.decide sha256 call :=
    fun gate call => decide_of_looksSame call.frame.looksSame_normalize gate call
  refine ⟨by rw [hframes, List.length_map, List.length_map], ?_⟩
  rw [hreceived]
  exact Transcript.answers_map hsame gate calls

/-- Calls with the frames of the sample stream. -/
def streamedCalls : List TuckCall :=
  [BindFrame.v1Frame, BindFrame.sampleFrame].map fun frame =>
    { frame, sourceId := 100, clock := none, now := 0 }

/-- The decisions about the frames that are read from it. -/
theorem run_streamed_streamedCalls :
    let frames := (BindFrame.twoFrames.foldl BindFrame.framer.feed .start).items
    let received :=
      List.zipWith (fun (call : TuckCall) frame => { call with frame }) streamedCalls frames
    (Transcript.transcript (decide sampleSha256) (new 1) received).map Exchange.answer =
      [.noSap, .allow] :=
  (run_streamed sampleSha256 (new 1) streamedCalls
    (List.forall_mem_map.2 BindFrame.sendable_twoFrames) BindFrame.sampleFrame
    BindFrame.sendable_sampleFrame 5 (by decide) BindFrame.twoFrames (by decide)).2.2.trans
    (by decide)

end TuckGate

end Bind19
