/-
**Previews.**

A caller can ask the processor what it would answer to a frame, without the frame being recorded.
The preview is written out a second time, in the processor and in the replay cache, and the cache
registers a new source on a path that the preview does not have.  Here it is shown that the preview
gives the answer that processing the frame would give in the same state, whatever the state is, and
that previews leave no trace: what a processor answers to all other calls of a run is what it would
answer without them.

Main definitions:

* `Bind19.ProcessorCall`, `Bind19.FrameProcessor.respond` — a call on a processor and its answer.

Main results:

* `Bind19.FrameProcessor.processFrame_fst` — processing a frame answers as the preview does;
* `Bind19.FrameProcessor.checkFrame_agrees` — **previews are right, and leave no trace**.
-/

import Bind19.Processor
import Bind19.Transcript

set_option relaxedAutoImplicit false
set_option autoImplicit false

namespace Bind19

/-- A call on a processor. -/
inductive ProcessorCall
  | processFrame (frame : BindFrame) (sourceId : UInt64) (now : Instant)
  | checkFrame (frame : BindFrame) (sourceId : UInt64)
  | cleanupExpired (clock : ReplayKey → Instant)
  | removeSource (sourceId : UInt64)

/-- Whether the call is no preview. -/
def ProcessorCall.takesEffect : ProcessorCall → Bool
  | checkFrame _ _ => false
  | _ => true

/-- What a processor answers: the fate of a frame, how many sources were dropped, or whether a
source was there. -/
inductive ProcessorAnswer
  | result (result : FrameProcessResult)
  | removed (count : ℕ)
  | found (found : Bool)
  deriving DecidableEq

namespace FrameProcessor

/-- One call, its answer and the processor afterwards. -/
def respond (p : FrameProcessor) : ProcessorCall → ProcessorAnswer × FrameProcessor
  | .processFrame frame sourceId now =>
      let (result, p) := p.processFrame frame sourceId now
      (.result result, p)
  | .checkFrame frame sourceId => (.result (p.checkFrame frame sourceId), p)
  | .cleanupExpired clock =>
      let (count, p) := p.cleanupExpired clock
      (.removed count, p)
  | .removeSource sourceId =>
      let (found, p) := p.removeSource sourceId
      (.found found, p)

/-- Processing a frame answers as the preview does. -/
theorem processFrame_fst (p : FrameProcessor) (frame : BindFrame) (sourceId : UInt64)
    (now : Instant) : (p.processFrame frame sourceId now).1 = p.checkFrame frame sourceId := by
  unfold processFrame checkFrame
  cases frame.sap with
  | none => rfl
  | some sap =>
      dsimp only
      cases replayEnable frame with
      | false => rfl
      | true =>
          rw [← ReplayCache.checkAndUpdate_fst p.replayCache _ _ now]
          rfl

/-- A preview changes nothing. -/
theorem respond_snd_of_preview (p : FrameProcessor) (call : ProcessorCall)
    (h : call.takesEffect = false) : (p.respond call).2 = p := by
  cases call with
  | checkFrame frame sourceId => rfl
  | processFrame | cleanupExpired | removeSource => cases h

/-- **Previews are right, and leave no trace.**  In every state of a processor the preview of a
frame gives the answer that processing it would give, at any time, and changes nothing; and so does
the preview of a sequence number in every state of a replay cache, full or not.  In every run of a
processor the previews can be left out: the other calls meet the same states and get the same
answers, and the state afterwards is the same. -/
theorem checkFrame_agrees (p : FrameProcessor) :
    (∀ frame sourceId now, p.checkFrame frame sourceId = (p.processFrame frame sourceId now).1 ∧
        p.respond (.checkFrame frame sourceId) = (.result (p.checkFrame frame sourceId), p)) ∧
      (∀ (cache : ReplayCache) key seq now,
        cache.checkOnly key seq = (cache.checkAndUpdate key seq now).1) ∧
      ∀ calls : List ProcessorCall,
        ((Transcript.transcript respond p calls).filter fun e => e.call.takesEffect) =
            Transcript.transcript respond p (calls.filter ProcessorCall.takesEffect) ∧
          Transcript.final respond p (calls.filter ProcessorCall.takesEffect) =
            Transcript.final respond p calls := by
  refine ⟨fun frame sourceId now => ⟨(processFrame_fst p frame sourceId now).symm, rfl⟩,
    fun cache key seq now => (ReplayCache.checkAndUpdate_fst cache key seq now).symm,
    fun calls => ⟨?_, ?_⟩⟩
  · exact Transcript.transcript_filter respond_snd_of_preview p calls
  · exact Transcript.final_filter respond_snd_of_preview p calls

end FrameProcessor

end Bind19
