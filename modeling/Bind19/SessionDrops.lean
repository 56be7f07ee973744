/-
**A session in which the receiver drops the source.**

When a key is rotated the receiver drops the source, so that the numbers of the new key can start
from zero; a clean-up drops it when nothing has come from it for some time.  From then on the
receiver knows nothing of what it has accepted, and a frame that the network has kept is accepted
again.

This cannot happen more often than the source is dropped.  Between two drops the session behaves as
one that has accepted nothing yet, and of such a session it is known that no frame is accepted
twice.

Main definitions:

* `Bind19.Session.since` — the session with only a part of what was accepted;
* `Bind19.Session.Bounded` — what is known after a number of drops;
* `Bind19.Session.drops` — how often a run drops the source.

Main results:

* `Bind19.Session.Bounded.step`, `Bind19.Session.Bounded.dropped` — what one step preserves;
* `Bind19.Session.run_atMostPerDrop` — **no frame is accepted more often than the source is dropped,
  and once more**.
-/

import Bind19.Session

set_option relaxedAutoImplicit false
set_option autoImplicit false

namespace Bind19

namespace Session

variable {sourceId : UInt64} {s s' t : Session} {a : SessionAction} {before accepted : List ℕ}
  {d i : ℕ}

/-- The session with only a part of what was accepted. -/
def since (s : Session) (accepted : List ℕ) : Session := { s with accepted }

theorem receive_since (s : Session) (accepted : List ℕ) (now : Instant) (i : ℕ) (f : SentFrame) :
    (s.since accepted).receive sourceId now i f =
      (s.receive sourceId now i f).since
        (if (s.processor.deliver (f.delivery sourceId now)).1.toOption = some .allowed then
          accepted ++ [i] else accepted) := by
  rw [receive, receive, since, since]

/-! ### What is known after a number of drops -/

/-- After a number of drops: what was accepted before the last of them, each checked frame at most
so often, and what was accepted since, as in a session without drops. -/
structure Bounded (sourceId : UInt64) (d : ℕ) (before accepted : List ℕ) (s : Session) : Prop where
  accepted_eq : s.accepted = before ++ accepted
  positions : ∀ i ∈ before, i < s.sent.length
  count_le : ∀ i, s.isChecked i = true → before.count i ≤ d
  sound : (s.since accepted).Sound sourceId

theorem bounded_init (sourceId : UInt64) (sap : SapHeader) (tenantId : UInt64) :
    Bounded sourceId 0 [] [] (init sap tenantId) where
  accepted_eq := rfl
  positions _ hi := absurd hi List.not_mem_nil
  count_le _ _ := Nat.le_refl 0
  sound := sound_init sourceId sap tenantId

/-- No checked frame was accepted more often than that, and once more. -/
theorem Bounded.count_accepted_le (h : Bounded sourceId d before accepted s)
    (hi : s.isChecked i = true) : s.accepted.count i ≤ d + 1 := by
  have hbefore := h.count_le i hi
  have hsince : accepted.count i ≤ 1 := h.sound.count_le_one hi
  rw [h.accepted_eq, List.count_append]
  omega

/-- The frames that were sent earlier are checked or not as before. -/
theorem isChecked_send (sender : CountingSender) (f : SentFrame) (hi : i < s.sent.length) :
    isChecked { s with sender, sent := s.sent ++ [f] } i = s.isChecked i := by
  rw [isChecked, isChecked, checkedSeqAt, checkedSeqAt]
  dsimp only
  rw [List.getElem?_append_left hi]

theorem Bounded.send (h : Bounded sourceId d before accepted s) (sender : CountingSender)
    (f : SentFrame) :
    Bounded sourceId d before accepted { s with sender, sent := s.sent ++ [f] } where
  accepted_eq := h.accepted_eq
  positions i hi := by
    rw [List.length_append]
    exact Nat.lt_add_right _ (h.positions i hi)
  count_le i hi := by
    by_cases hmem : i ∈ before
    · rw [isChecked_send sender f (h.positions i hmem)] at hi
      exact h.count_le i hi
    · rw [List.count_eq_zero.2 hmem]
      exact Nat.zero_le d
  sound := h.sound.send sender f

theorem Bounded.receive (h : Bounded sourceId d before accepted s) {f : SentFrame}
    (hf : s.sent[i]? = some f) (now : Instant) :
    ∃ accepted', Bounded sourceId d before accepted' (s.receive sourceId now i f) := by
  have hsound := Sound.receive h.sound hf now
  rw [receive_since] at hsound
  refine ⟨_, ?_, ?_, ?_, hsound⟩
  · rw [Session.receive]
    dsimp only
    split
    · rw [h.accepted_eq, List.append_assoc]
    · exact h.accepted_eq
  · rw [receive_sent]
    exact h.positions
  · intro j hj
    rw [isChecked, checkedSeqAt_congr (receive_sent now i f)] at hj
    exact h.count_le j hj

theorem Bounded.quiet (h : Bounded sourceId d before accepted s) {processor : FrameProcessor}
    (hgrows : FrameProcessor.RecordGrows sourceId s.processor processor) :
    Bounded sourceId d before accepted { s with processor } :=
  ⟨h.accepted_eq, h.positions, h.count_le, h.sound.quiet hgrows⟩

/-- What a step preserves that does not drop the source. -/
theorem Bounded.step (h : Bounded sourceId d before accepted s) (hkeeps : s.Keeps sourceId a)
    (hstep : Session.step sourceId s a = some s') :
    ∃ accepted', Bounded sourceId d before accepted' s' := by
  rcases step_cases hstep with
    ⟨request, f, sender, -, -, -, -, rfl⟩ | ⟨action, sender, -, -, -, rfl⟩ |
    ⟨i, now, f, -, hf, rfl⟩ | ⟨processor, rfl, hprocessor⟩
  · exact ⟨accepted, h.send sender f⟩
  · exact ⟨accepted, h.accepted_eq, h.positions, h.count_le, h.sound.positions,
      h.sound.ascending, h.sound.onRecord⟩
  · exact h.receive hf now
  · refine ⟨accepted, h.quiet ?_⟩
    rcases hprocessor with ⟨d, -, rfl⟩ | ⟨clock, rfl, rfl⟩ | ⟨sourceId', rfl, rfl⟩
    · exact FrameProcessor.recordGrows_deliver s.processor d sourceId
    · exact FrameProcessor.recordGrows_of_eq (FrameProcessor.lastSeq_cleanupExpired_of_kept hkeeps)
    · exact FrameProcessor.recordGrows_of_eq (FrameProcessor.lastSeq_removeSource_of_kept hkeeps)

/-- When the source is dropped, nothing is left of what was accepted since the last time. -/
theorem Bounded.dropped (h : Bounded sourceId d before accepted s)
    (hdrops : ¬ s.Keeps sourceId a) (hstep : Session.step sourceId s a = some s') :
    Bounded sourceId (d + 1) s.accepted [] s' := by
  have hpositions : ∀ i ∈ s.accepted, i < s.sent.length := by
    intro i hi
    rw [h.accepted_eq] at hi
    rcases List.mem_append.1 hi with hi | hi
    · exact h.positions i hi
    · exact h.sound.positions i hi
  rcases step_cases hstep with
    ⟨request, f, sender, rfl, -⟩ | ⟨action, sender, rfl, -⟩ | ⟨i, now, f, rfl, -⟩ |
    ⟨processor, rfl, -⟩
  · exact absurd trivial hdrops
  · exact absurd trivial hdrops
  · exact absurd trivial hdrops
  · exact
      { accepted_eq := (List.append_nil _).symm
        positions := hpositions
        count_le := fun i hi => h.count_accepted_le hi
        sound :=
          { positions := fun _ hi => absurd hi List.not_mem_nil
            ascending := List.Pairwise.nil
            onRecord := fun _ hn => absurd hn List.not_mem_nil } }

/-! ### Runs -/

/-- How often a run drops the source: a clean-up finds it expired, or a removal finds it. -/
def drops (sourceId : UInt64) (s : Session) (actions : List SessionAction) : ℕ :=
  Runs.tally (step sourceId) (fun s a => if s.Keeps sourceId a then 0 else 1) s actions

theorem Bounded.run {actions : List SessionAction} (h : Bounded sourceId d before accepted s)
    (hrun : Runs.run (Session.step sourceId) s actions = some t) :
    ∃ before' accepted', Bounded sourceId (d + drops sourceId s actions) before' accepted' t := by
  induction actions generalizing s d before accepted with
  | nil =>
      cases hrun
      exact ⟨before, accepted, h⟩
  | cons a actions ih =>
      obtain ⟨s', hs', hrun⟩ := (Runs.run_cons_eq_some_iff _).1 hrun
      rw [drops, Runs.tally_cons _ hs']
      by_cases hkeeps : s.Keeps sourceId a
      · obtain ⟨accepted', h'⟩ := h.step hkeeps hs'
        rw [if_pos hkeeps, Nat.zero_add]
        exact ih h' hrun
      · rw [if_neg hkeeps, ← Nat.add_assoc]
        exact ih (h.dropped hkeeps hs') hrun

/-- **No frame is accepted more often than the source is dropped, and once more.**  In every run,
whatever frames the sender sends and rotations it goes through, whatever the network does with them
or invents, and whenever the receiver removes sources and cleans up: a frame that is checked is
accepted at most once more than the receiver has dropped the source. -/
theorem run_atMostPerDrop (sourceId tenantId : UInt64) (sap : SapHeader)
    (actions : List SessionAction) (s : Session)
    (hrun : Runs.run (Session.step sourceId) (init sap tenantId) actions = some s) (i : ℕ)
    (hi : s.isChecked i = true) :
    s.accepted.count i ≤ drops sourceId (init sap tenantId) actions + 1 := by
  obtain ⟨before, accepted, h⟩ := (bounded_init sourceId sap tenantId).run hrun
  rw [Nat.zero_add] at h
  exact h.count_accepted_le hi

/-- A frame is delivered three times, and the source is removed before and after the first. -/
def removedSource : List SessionAction :=
  [.send sampleRequest, .remove 7, .deliver 0 5, .remove 7, .deliver 0 6, .deliver 0 7]

/-- The state afterwards. -/
def afterRemovedSource : Session :=
  (Runs.run (Session.step 7) (init sampleSap 1) removedSource).get (by decide +kernel)

/-- The first removal finds nothing, and the frame is accepted twice at most. -/
theorem run_atMostPerDrop_removedSource :
    drops 7 (init sampleSap 1) removedSource = 1 ∧ afterRemovedSource.accepted.count 0 ≤ 1 + 1 := by
  have hdrops : drops 7 (init sampleSap 1) removedSource = 1 := by decide +kernel
  refine ⟨hdrops, ?_⟩
  have hcount := run_atMostPerDrop 7 1 sampleSap removedSource afterRemovedSource
    (Option.some_get _).symm 0 (by decide +kernel)
  rwa [hdrops] at hcount

end Session

end Bind19
