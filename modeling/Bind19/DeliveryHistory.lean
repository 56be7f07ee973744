/-
**Frames delivered over an unreliable network.**

Frames reach the processor as byte strings, each with the source that the network reports for it.
They may be lost, doubled and reordered, and some of them may not be frames at all.  The replay
cache keeps one number for each source; this module proves that nothing more is needed: as long as
there are no more sources than the cache holds, the fate of a frame is decided by all the numbers
that were delivered before from the same source, accepted or not.

Main definitions:

* `Bind19.Delivery`, `Bind19.FrameProcessor.deliver` — a byte string is delivered;
* `Bind19.Delivery.checkedSeq` — the number of a frame that is checked;
* `Bind19.Delivery.numbers` — the numbers delivered from a source.

Main results:

* `Bind19.FrameProcessor.deliver_cases` — **what a delivery does**;
* `Bind19.FrameProcessor.Recorded.deliver` — what one delivery preserves;
* `Bind19.FrameProcessor.deliver_spec` — **a frame is accepted exactly when its number exceeds all
  those delivered before from its source**, whatever else was delivered.
-/

import Bind19.Ascending
import Bind19.Processor
import Bind19.Transcript

set_option relaxedAutoImplicit false
set_option autoImplicit false

namespace Bind19

/-- A byte string that is delivered, the source it comes from, and the time. -/
structure Delivery where
  buf : List UInt8
  sourceId : UInt64
  now : Instant

namespace Delivery

/-- The number that is checked: the byte string is a frame with a SAP, and its Replay-Enable bit is
on or it has no PFP. -/
def checkedSeq (d : Delivery) : Option UInt16 :=
  match BindFrame.decode d.buf with
  | .error _ => none
  | .ok frame =>
      match frame.sap with
      | none => none
      | some sap => if FrameProcessor.replayEnable frame then some sap.seqCounter else none

/-- Whether a number of a given source is checked. -/
def isCheckedOf (sourceId : UInt64) (d : Delivery) : Bool :=
  d.checkedSeq.isSome && d.sourceId == sourceId

/-- The numbers of a source that were checked. -/
def numbers (ds : List Delivery) (sourceId : UInt64) : List UInt16 :=
  (ds.filter fun d => d.sourceId == sourceId).filterMap checkedSeq

variable {d : Delivery} {ds : List Delivery} {sourceId : UInt64} {seq : UInt16}

theorem checkedSeq_eq_some_iff : d.checkedSeq = some seq ↔
    ∃ frame sap, BindFrame.decode d.buf = .ok frame ∧ frame.sap = some sap ∧
      FrameProcessor.replayEnable frame = true ∧ sap.seqCounter = seq := by
  unfold checkedSeq
  cases BindFrame.decode d.buf with
  | error e => simp
  | ok frame =>
      dsimp only
      cases hsap : frame.sap with
      | none => simp [hsap]
      | some sap => simp [hsap]

theorem mem_numbers : seq ∈ numbers ds sourceId ↔
    ∃ d ∈ ds, d.sourceId = sourceId ∧ d.checkedSeq = some seq := by
  simp [numbers, and_assoc]

theorem numbers_concat_of_none (h : d.checkedSeq = none) (sourceId : UInt64) :
    numbers (ds ++ [d]) sourceId = numbers ds sourceId := by
  simp [numbers, List.filter_cons, apply_ite, h]

theorem numbers_concat_of_ne (h : d.sourceId ≠ sourceId) :
    numbers (ds ++ [d]) sourceId = numbers ds sourceId := by
  simp [numbers, h]

theorem numbers_concat (h : d.checkedSeq = some seq) :
    numbers (ds ++ [d]) d.sourceId = numbers ds d.sourceId ++ [seq] := by
  simp [numbers, h]

end Delivery

namespace FrameProcessor

/-- A byte string is delivered: if it is a frame, it is processed. -/
def deliver (p : FrameProcessor) (d : Delivery) :
    Except FrameError FrameProcessResult × FrameProcessor :=
  match BindFrame.decode d.buf with
  | .error e => (.error e, p)
  | .ok frame =>
      let (result, p') := p.processFrame frame d.sourceId d.now
      (.ok result, p')

variable {p p' : FrameProcessor} {d : Delivery} {ds : List Delivery} {seq : UInt16}

/-- **What a delivery does.**  It goes past the replay cache, or it is checked. -/
theorem deliver_of_none (h : d.checkedSeq = none) (p : FrameProcessor) :
    (p.deliver d).2 = p := by
  unfold Delivery.checkedSeq at h
  unfold deliver processFrame
  cases hdec : BindFrame.decode d.buf with
  | error e => rfl
  | ok frame =>
      rw [hdec] at h
      dsimp only at h ⊢
      cases hsap : frame.sap with
      | none => rfl
      | some sap =>
          rw [hsap] at h
          cases hbit : replayEnable frame with
          | false => rfl
          | true => simp [hbit] at h

/-- **What a checked delivery does.** -/
theorem deliver_of_some (h : d.checkedSeq = some seq) (p : FrameProcessor) :
    p.deliver d =
      (.ok (.ofCheck (p.replayCache.checkAndUpdate (p.key d.sourceId) seq d.now).1),
        { p with
          replayCache := (p.replayCache.checkAndUpdate (p.key d.sourceId) seq d.now).2 }) := by
  obtain ⟨frame, sap, hdec, hsap, hbit, rfl⟩ := Delivery.checkedSeq_eq_some_iff.1 h
  rw [deliver, hdec]
  dsimp only
  rw [processFrame, hsap]
  dsimp only
  rw [hbit]
  rfl

theorem deliver_key (p : FrameProcessor) (d : Delivery) : (p.deliver d).2.key = p.key := by
  cases h : d.checkedSeq with
  | none => rw [deliver_of_none h]
  | some seq =>
      rw [deliver_of_some h]
      rfl

/-- What is on record for other sources does not change. -/
theorem lastSeq_deliver_of_ne {key : ReplayKey} (hkey : key ≠ p.key d.sourceId) :
    (p.deliver d).2.replayCache.lastSeq key = p.replayCache.lastSeq key := by
  cases h : d.checkedSeq with
  | none => rw [deliver_of_none h]
  | some seq =>
      rw [deliver_of_some h]
      exact ReplayCache.lastSeq_checkAndUpdate_of_ne hkey

theorem lastSeq_deliver_of_source_ne {sourceId : UInt64} (hsource : d.sourceId ≠ sourceId) :
    (p.deliver d).2.lastSeq sourceId = p.lastSeq sourceId := by
  have hkey : p.key sourceId ≠ p.key d.sourceId := by
    intro hkey
    exact hsource (congrArg ReplayKey.sourceId hkey).symm
  rw [lastSeq, deliver_key, lastSeq_deliver_of_ne hkey, lastSeq]

/-! ### Room for every source -/

/-- Only sources among the given ones are on record. -/
def Known (p : FrameProcessor) (sources : Finset UInt64) : Prop :=
  ∀ key, (p.replayCache.lastSeq key).isSome = true → key ∈ sources.image p.key

variable {sources : Finset UInt64}

theorem known_of_empty (hempty : p.replayCache.len = 0) : p.Known sources := by
  intro key hkey
  rw [ReplayCache.lastSeq, FiniteMap.get?_eq_none_of_len_eq_zero hempty] at hkey
  cases hkey

theorem Known.deliver (h : p.Known sources) (hd : d.sourceId ∈ sources) :
    (p.deliver d).2.Known sources := by
  intro key hkey
  rw [deliver_key]
  by_cases heq : key = p.key d.sourceId
  · rw [heq]
    exact Finset.mem_image_of_mem _ hd
  · rw [lastSeq_deliver_of_ne heq] at hkey
    exact h key hkey

/-- There is room for every one of few sources. -/
theorem Known.not_crowded (h : p.Known sources) (hcard : sources.card ≤ replayCacheMaxCapacity)
    (hd : d.sourceId ∈ sources) : ¬ p.replayCache.Crowded (p.key d.sourceId) :=
  ReplayCache.not_crowded h (Nat.le_trans Finset.card_image_le hcard)
    (Finset.mem_image_of_mem _ hd)

/-! ### The number on record stands for all that were delivered -/

/-- The sources on record are known, and what exceeds the number on record for a source exceeds all
numbers that were delivered from it. -/
structure Recorded (p : FrameProcessor) (sources : Finset UInt64) (ds : List Delivery) : Prop where
  known : p.Known sources
  bounds : ∀ sourceId,
    Ascending.Bounds (fun a b : UInt16 => a < b) (p.lastSeq sourceId) (Delivery.numbers ds sourceId)

theorem recorded_of_empty (hempty : p.replayCache.len = 0) : p.Recorded sources [] := by
  refine ⟨known_of_empty hempty, fun sourceId => ?_⟩
  rw [lastSeq, ReplayCache.lastSeq, FiniteMap.get?_eq_none_of_len_eq_zero hempty]
  exact Ascending.bounds_nil

/-- Where there is room, a number is accepted if it exceeds the one on record. -/
theorem deliver_allowed_iff (hroom : ¬ p.replayCache.Crowded (p.key d.sourceId))
    (hseq : d.checkedSeq = some seq) :
    (p.deliver d).1 = .ok .allowed ↔ ∀ last, p.lastSeq d.sourceId = some last → last < seq := by
  rw [deliver_of_some hseq, ReplayCache.checkAndUpdate_fst, lastSeq,
    ← ReplayCache.fresh_iff_of_not_crowded hroom, ← ReplayCache.checkOnly_eq_allowed_iff]
  cases p.replayCache.checkOnly (p.key d.sourceId) seq <;> simp [FrameProcessResult.ofCheck]

/-- An accepted number takes the place of the one on record. -/
theorem lastSeq_deliver_of_fresh (hseq : d.checkedSeq = some seq)
    (hfresh : p.replayCache.Fresh (p.key d.sourceId) seq) :
    (p.deliver d).2.lastSeq d.sourceId = some seq := by
  rw [lastSeq, deliver_key, deliver_of_some hseq, ReplayCache.checkAndUpdate_snd,
    if_pos (ReplayCache.checkOnly_eq_allowed_iff.2 hfresh)]
  exact (ReplayCache.lastSeq_register _ _ _ _ _).trans (if_pos rfl)

/-- Any other number leaves it there. -/
theorem lastSeq_deliver_of_not_fresh (hseq : d.checkedSeq = some seq)
    (hfresh : ¬ p.replayCache.Fresh (p.key d.sourceId) seq) :
    (p.deliver d).2.lastSeq d.sourceId = p.lastSeq d.sourceId := by
  rw [lastSeq, deliver_key, deliver_of_some hseq, ReplayCache.checkAndUpdate_snd,
    if_neg (mt ReplayCache.checkOnly_eq_allowed_iff.1 hfresh)]
  rfl

/-- What a checked delivery preserves for its own source. -/
theorem Recorded.bounds_deliver (h : p.Recorded sources ds)
    (hroom : ¬ p.replayCache.Crowded (p.key d.sourceId)) (hseq : d.checkedSeq = some seq) :
    Ascending.Bounds (fun a b : UInt16 => a < b) ((p.deliver d).2.lastSeq d.sourceId)
      (Delivery.numbers (ds ++ [d]) d.sourceId) := by
  have hbounds := h.bounds d.sourceId
  rw [Delivery.numbers_concat hseq]
  by_cases hfresh : p.replayCache.Fresh (p.key d.sourceId) seq
  · rw [lastSeq_deliver_of_fresh hseq hfresh]
    refine Ascending.Bounds.concat_of_rel (r := fun a b : UInt16 => a < b) UInt16.lt_trans
      hbounds ?_
    exact (ReplayCache.fresh_iff_of_not_crowded hroom).1 hfresh
  · rw [lastSeq_deliver_of_not_fresh hseq hfresh]
    rw [ReplayCache.fresh_iff_of_not_crowded hroom] at hfresh
    push Not at hfresh
    obtain ⟨last, hlast, hle⟩ := hfresh
    rw [show p.lastSeq d.sourceId = some last from hlast] at hbounds ⊢
    refine hbounds.concat_of_not_rel (fun hab hac => ?_) hle
    exact UInt16.lt_of_le_of_lt (UInt16.not_lt.1 hab) hac

/-- **What one delivery preserves.** -/
theorem Recorded.deliver (h : p.Recorded sources ds) (hcard : sources.card ≤ replayCacheMaxCapacity)
    (hd : d.sourceId ∈ sources) : (p.deliver d).2.Recorded sources (ds ++ [d]) := by
  refine ⟨h.known.deliver hd, fun sourceId => ?_⟩
  cases hseq : d.checkedSeq with
  | none =>
      rw [deliver_of_none hseq, Delivery.numbers_concat_of_none hseq]
      exact h.bounds sourceId
  | some seq =>
      by_cases hsource : d.sourceId = sourceId
      · rw [← hsource]
        exact h.bounds_deliver (h.known.not_crowded hcard hd) hseq
      · rw [Delivery.numbers_concat_of_ne hsource, lastSeq_deliver_of_source_ne hsource]
        exact h.bounds sourceId

/-- The number on record stands for all that were delivered in a run. -/
theorem recorded_final (hempty : p.replayCache.len = 0)
    (hcard : sources.card ≤ replayCacheMaxCapacity) (hds : ∀ d ∈ ds, d.sourceId ∈ sources) :
    (Transcript.final deliver p ds).Recorded sources ds := by
  induction ds using List.reverseRecOn with
  | nil => exact recorded_of_empty hempty
  | append_singleton ds d ih =>
      rw [Transcript.final_concat]
      exact (ih fun d' hd' => hds d' (by simp [hd'])).deliver hcard (hds d (by simp))

/-! ### Other frames change no verdict -/

/-- Two processors that have the same on record for a source, and room for it. -/
structure AgreeOn (sourceId : UInt64) (sources : Finset UInt64) (p q : FrameProcessor) : Prop where
  lastSeq : p.lastSeq sourceId = q.lastSeq sourceId
  left : p.Known sources
  right : q.Known sources

variable {q : FrameProcessor} {sourceId : UInt64}

/-- A checked delivery from the source is answered alike, and they agree afterwards. -/
theorem AgreeOn.deliver (h : AgreeOn d.sourceId sources p q)
    (hcard : sources.card ≤ replayCacheMaxCapacity) (hd : d.sourceId ∈ sources)
    (hseq : d.checkedSeq = some seq) :
    (p.deliver d).1 = (q.deliver d).1 ∧
      AgreeOn d.sourceId sources (p.deliver d).2 (q.deliver d).2 := by
  have hanswer : p.replayCache.checkOnly (p.key d.sourceId) seq =
      q.replayCache.checkOnly (q.key d.sourceId) seq :=
    ReplayCache.checkOnly_congr h.lastSeq (h.left.not_crowded hcard hd)
      (h.right.not_crowded hcard hd)
  refine ⟨?_, ?_, h.left.deliver hd, h.right.deliver hd⟩
  · rw [deliver_of_some hseq, deliver_of_some hseq, ReplayCache.checkAndUpdate_fst,
      ReplayCache.checkAndUpdate_fst, hanswer]
  · by_cases hfresh : p.replayCache.Fresh (p.key d.sourceId) seq
    · have hfresh' : q.replayCache.Fresh (q.key d.sourceId) seq := by
        rwa [← ReplayCache.checkOnly_eq_allowed_iff, ← hanswer,
          ReplayCache.checkOnly_eq_allowed_iff]
      rw [lastSeq_deliver_of_fresh hseq hfresh, lastSeq_deliver_of_fresh hseq hfresh']
    · have hfresh' : ¬ q.replayCache.Fresh (q.key d.sourceId) seq := by
        rwa [← ReplayCache.checkOnly_eq_allowed_iff, ← hanswer,
          ReplayCache.checkOnly_eq_allowed_iff]
      rw [lastSeq_deliver_of_not_fresh hseq hfresh, lastSeq_deliver_of_not_fresh hseq hfresh']
      exact h.lastSeq

/-- Any other delivery leaves them in agreement. -/
theorem AgreeOn.deliver_other (h : AgreeOn sourceId sources p q) (hd : d.sourceId ∈ sources)
    (hother : d.isCheckedOf sourceId = false) :
    AgreeOn sourceId sources (p.deliver d).2 q := by
  refine ⟨?_, h.left.deliver hd, h.right⟩
  rw [← h.lastSeq]
  cases hseq : d.checkedSeq with
  | none => rw [deliver_of_none hseq]
  | some seq =>
      have hsource : d.sourceId ≠ sourceId := by simpa [Delivery.isCheckedOf, hseq] using hother
      exact lastSeq_deliver_of_source_ne hsource

/-- The checked deliveries of a source are answered as if there were no others. -/
theorem answers_isCheckedOf (hempty : p.replayCache.len = 0)
    (hcard : sources.card ≤ replayCacheMaxCapacity) (hds : ∀ d ∈ ds, d.sourceId ∈ sources)
    (sourceId : UInt64) :
    ((Transcript.transcript deliver p ds).filter
        fun e => e.call.isCheckedOf sourceId).map Exchange.answer =
      (Transcript.transcript deliver p (ds.filter fun d => d.isCheckedOf sourceId)).map
        Exchange.answer := by
  rw [← List.forall₂_eq_eq_eq, List.forall₂_map_left_iff, List.forall₂_map_right_iff]
  refine Transcript.forall₂_of_unwinding (r := AgreeOn sourceId sources) ?_ ?_
    ⟨rfl, known_of_empty hempty, known_of_empty hempty⟩
  · intro p q d hd hchecked h
    rw [Delivery.isCheckedOf, Bool.and_eq_true, beq_iff_eq] at hchecked
    obtain ⟨hsome, rfl⟩ := hchecked
    obtain ⟨seq, hseq⟩ := Option.isSome_iff_exists.1 hsome
    exact h.deliver hcard (hds d hd) hseq
  · intro p q d hd hother h
    exact h.deliver_other (hds d hd) hother

/-- **When a frame is accepted.**  A processor with an empty cache is given any sequence of byte
strings, from no more sources than the cache holds.  A frame that is checked is accepted if and only
if its number exceeds the number of every checked frame delivered before from the same source.  The
deliveries that are not checked, and those from other sources, change none of the answers. -/
theorem deliveries_spec (p : FrameProcessor) (ds : List Delivery)
    (hempty : p.replayCache.len = 0)
    (hsources : (ds.map Delivery.sourceId).toFinset.card ≤ replayCacheMaxCapacity) :
    (∀ pre d post seq, ds = pre ++ d :: post → d.checkedSeq = some seq →
      (((Transcript.final deliver p pre).deliver d).1 = .ok .allowed ↔
        ∀ earlier ∈ pre, earlier.sourceId = d.sourceId →
          ∀ seq', earlier.checkedSeq = some seq' → seq' < seq)) ∧
      ∀ sourceId,
        ((Transcript.transcript deliver p ds).filter
            fun e => e.call.isCheckedOf sourceId).map Exchange.answer =
          (Transcript.transcript deliver p (ds.filter fun d => d.isCheckedOf sourceId)).map
            Exchange.answer := by
  have hmem : ∀ d ∈ ds, d.sourceId ∈ (ds.map Delivery.sourceId).toFinset := fun d hd =>
    List.mem_toFinset.2 (List.mem_map_of_mem hd)
  refine ⟨?_, answers_isCheckedOf hempty hsources hmem⟩
  intro pre d post seq hds hseq
  have hd : d.sourceId ∈ (ds.map Delivery.sourceId).toFinset := hmem d (by simp [hds])
  have hrecorded : (Transcript.final deliver p pre).Recorded
      (ds.map Delivery.sourceId).toFinset pre :=
    recorded_final hempty hsources fun d' hd' => hmem d' (by simp [hds, hd'])
  rw [deliver_allowed_iff (hrecorded.known.not_crowded hsources hd) hseq]
  refine (hrecorded.bounds d.sourceId seq).symm.trans ⟨fun h => ?_, fun h => ?_⟩
  · intro earlier hearlier hsource seq' hseq'
    exact h seq' (Delivery.mem_numbers.2 ⟨earlier, hearlier, hsource, hseq'⟩)
  · intro seq' hmem'
    obtain ⟨earlier, hearlier, hsource, hseq'⟩ := Delivery.mem_numbers.1 hmem'
    exact h earlier hearlier hsource seq' hseq'

/-- A frame with a SAP and no PFP, with the number 42. -/
def capturedFrame : Delivery :=
  { buf := [0x01, 0x01, 0x10, 0, 0, 0, 0, 0, 0xCF, 0x14, 0x01, 0x01, 0x00, 0x2A] ++
      List.replicate 22 0
    sourceId := 7
    now := 0 }

/-- It is not accepted a second time. -/
theorem deliveries_spec_capturedFrame :
    ((Transcript.final deliver (new 1) [capturedFrame]).deliver capturedFrame).1 ≠
      .ok .allowed := by
  intro hallowed
  have hlt := ((deliveries_spec (new 1) [capturedFrame, capturedFrame] rfl (by decide)).1
    [capturedFrame] capturedFrame [] 42 rfl (by decide +kernel)).1 hallowed capturedFrame
      (by simp) rfl 42 (by decide +kernel)
  exact absurd hlt (by decide)

end FrameProcessor

end Bind19
