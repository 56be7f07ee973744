/-
**What concurrent checks agree on.**

Between the load of a check and its store, another check may store; and between an insertion and
the re-insertion of the entry it displaced, another check may store or insert.  In the first case
the store may put a smaller number on record than the one it overwrites, in the second the
re-insertion may.  This module shows that these are the only ways in which concurrent checks go
wrong: in a run in which no store and no re-insertion goes back, the number on record is the
greatest accepted one whenever no check is in progress, and on a source that was known from the
start no number is accepted twice.

Main definitions:

* `Bind19.CheckState.Quiescent` — no check on a source is in progress;
* `Bind19.CheckState.goesForward` — the next step does not put a smaller number on record;
* `Bind19.CheckState.Accounted`, `Bind19.CheckState.Settled` — the invariants, for any source and
  for one that was known from the start.

Main results:

* `Bind19.CheckState.Accounted.step`, `Bind19.CheckState.Settled.step` — what one step preserves;
* `Bind19.CheckState.run_agreement` — **what concurrent checks agree on**.
-/

import Bind19.Ascending
import Bind19.ReplayRace

set_option relaxedAutoImplicit false
set_option autoImplicit false

namespace Bind19

/-! ### Steps that go forward -/

/-- The greater of two words is at most what both are at most. -/
instance lawfulOrderMaxUInt16 : Std.LawfulOrderMax UInt16 :=
  Std.LawfulOrderMax.of_max_le_iff
    (fun a b c => by
      have hmax : max a b = if a ≤ b then b else a := rfl
      rw [hmax]
      split <;> simp only [UInt16.le_iff_toNat_le] at * <;> omega)
    (fun a b => by
      have hmax : max a b = if a ≤ b then b else a := rfl
      rw [hmax]
      split
      · exact Or.inr rfl
      · exact Or.inl rfl)

/-- The next step of the check does not put a smaller number on record, be it a store or a
re-insertion. -/
def CheckCall.goesForward (g : CheckShared) (call : CheckCall) : Bool :=
  match call.phase, g.lastSeq call.key with
  | .loaded, some last => last < call.seq
  | .displaced oldEntry, some last => last ≤ oldEntry.lastSeq
  | _, _ => true

namespace CheckState

/-- The action does not put a smaller number on record. -/
def goesForward (s : CheckState) : CheckAction → Bool
  | .spawn _ => true
  | .advance i _ => (s.threads[i]?.map (CheckCall.goesForward s.shared)).getD true

/-- No check on the source is in progress. -/
def Quiescent (s : CheckState) (key : ReplayKey) : Prop :=
  ∀ c ∈ s.threads, c.key = key → c.isReturned = true

instance (s : CheckState) (key : ReplayKey) : Decidable (s.Quiescent key) :=
  inferInstanceAs (Decidable (∀ c ∈ s.threads, c.key = key → c.isReturned = true))

/-! ### Every accepted number is accounted for -/

/-- Every accepted number of the source is at most the one on record, or at most one that a check is
about to put back; and these in turn are at most some accepted number. -/
structure Accounted (s : CheckState) (key : ReplayKey) : Prop where
  covered : ∀ x ∈ s.shared.allowed key, (∃ last, s.shared.lastSeq key = some last ∧ x ≤ last) ∨
    ∃ c ∈ s.threads, c.key = key ∧ ∃ v, c.displacedSeq = some v ∧ x ≤ v
  backed : ∀ last, s.shared.lastSeq key = some last → ∃ x ∈ s.shared.allowed key, last ≤ x
  backedDisplaced : ∀ c ∈ s.threads, c.key = key → ∀ v, c.displacedSeq = some v →
    ∃ x ∈ s.shared.allowed key, v ≤ x

variable {s : CheckState} {key : ReplayKey} {i : ℕ} {call call' : CheckCall} {g : CheckShared}

theorem accounted_begin (cache : ReplayCache) (key : ReplayKey) :
    (CheckState.begin cache).Accounted key where
  covered x hx := Or.inl ⟨x, by simpa [CheckState.begin, CheckShared.lastSeq] using hx,
    UInt16.le_refl x⟩
  backed last hlast := ⟨last, by simpa [CheckState.begin, CheckShared.lastSeq] using hlast,
    UInt16.le_refl last⟩
  backedDisplaced c hc := by simp [CheckState.begin] at hc

/-- A new check has displaced nothing. -/
theorem Accounted.spawn (h : s.Accounted key) (request : ReplayKey × UInt16) :
    Accounted { shared := s.shared, threads := s.threads ++ [CheckCall.start request] } key where
  covered x hx := by
    rcases h.covered x hx with hlast | ⟨c, hc, hrest⟩
    · exact Or.inl hlast
    · exact Or.inr ⟨c, List.mem_append_left _ hc, hrest⟩
  backed := h.backed
  backedDisplaced c hc hkey v hv := by
    rcases List.mem_append.1 hc with hc | hc
    · exact h.backedDisplaced c hc hkey v hv
    · rw [List.mem_singleton.1 hc] at hv
      cases hv

/-- A step on another source does not matter. -/
theorem Accounted.other (h : s.Accounted key) (hi : s.threads[i]? = some call)
    (hne : call.key ≠ key) (hcall' : call'.key = call.key)
    (hlast : g.lastSeq key = s.shared.lastSeq key)
    (hallowed : g.allowed key = s.shared.allowed key) :
    Accounted { shared := g, threads := s.threads.set i call' } key where
  covered x hx := by
    rw [hallowed] at hx
    rw [hlast]
    rcases h.covered x hx with hcov | ⟨c, hc, hkey, hrest⟩
    · exact Or.inl hcov
    · have hne' : c ≠ call := fun heq => hne (heq ▸ hkey)
      exact Or.inr ⟨c, Threads.mem_set_of_ne hi hc hne', hkey, hrest⟩
  backed last hl := by
    rw [hallowed]
    exact h.backed last (hlast ▸ hl)
  backedDisplaced c hc hkey v hv := by
    rw [hallowed]
    rcases Threads.eq_or_mem_of_mem_set hc with rfl | hc
    · exact absurd (hcall'.symm.trans hkey) hne
    · exact h.backedDisplaced c hc hkey v hv

/-- A check that has displaced nothing stays out of the account of the displaced numbers. -/
theorem Accounted.displaced_of_ne (hi : s.threads[i]? = some call)
    (hnone : call.displacedSeq = none) {x : UInt16}
    (h : ∃ c ∈ s.threads, c.key = key ∧ ∃ v, c.displacedSeq = some v ∧ x ≤ v) :
    ∃ c ∈ s.threads.set i call', c.key = key ∧ ∃ v, c.displacedSeq = some v ∧ x ≤ v := by
  obtain ⟨c, hc, hkey, v, hv, hx⟩ := h
  have hne : c ≠ call := by
    rintro rfl
    rw [hnone] at hv
    cases hv
  exact ⟨c, Threads.mem_set_of_ne hi hc hne, hkey, v, hv, hx⟩

/-- A step that changes nothing but the phase of its own check. -/
theorem Accounted.look (h : s.Accounted key) (hi : s.threads[i]? = some call)
    (hfrom : call.displacedSeq = none) (hto : call'.displacedSeq = none) :
    Accounted { shared := s.shared, threads := s.threads.set i call' } key where
  covered x hx := (h.covered x hx).imp_right (displaced_of_ne hi hfrom)
  backed := h.backed
  backedDisplaced c hc hkey v hv := by
    rcases Threads.eq_or_mem_of_mem_set hc with rfl | hc
    · rw [hto] at hv
      cases hv
    · exact h.backedDisplaced c hc hkey v hv

/-- A step that accepts a number above the one on record. -/
theorem Accounted.accept (h : s.Accounted call.key) (hi : s.threads[i]? = some call)
    (hfrom : call.displacedSeq = none) (hto : call'.displacedSeq = none) {entry : ReplayEntry}
    (hentry : entry.lastSeq = call.seq)
    (habove : ∀ last, s.shared.lastSeq call.key = some last → last < call.seq) :
    Accounted
      { shared := (s.shared.put call.key entry).note call.key call.seq
        threads := s.threads.set i call' } call.key where
  covered x hx := by
    dsimp only at hx ⊢
    rw [CheckShared.allowed_note_self, CheckShared.allowed_put] at hx
    rw [CheckShared.lastSeq_note, CheckShared.lastSeq_put_self, hentry]
    rcases List.mem_append.1 hx with hx | hx
    · rcases h.covered x hx with ⟨last, hlast, hle⟩ | hpending
      · exact Or.inl ⟨_, rfl, UInt16.le_of_lt (UInt16.lt_of_le_of_lt hle (habove last hlast))⟩
      · exact Or.inr (displaced_of_ne hi hfrom hpending)
    · rw [List.mem_singleton.1 hx]
      exact Or.inl ⟨_, rfl, UInt16.le_refl _⟩
  backed last hlast := by
    dsimp only at hlast ⊢
    rw [CheckShared.lastSeq_note, CheckShared.lastSeq_put_self, hentry] at hlast
    cases hlast
    exact ⟨call.seq, by simp, UInt16.le_refl _⟩
  backedDisplaced c hc hkey v hv := by
    rcases Threads.eq_or_mem_of_mem_set hc with rfl | hc
    · rw [hto] at hv
      cases hv
    · obtain ⟨x, hx, hle⟩ := h.backedDisplaced c hc hkey v hv
      exact ⟨x, by simp [hx], hle⟩

/-- A step that displaces an entry with a number that is not smaller. -/
theorem Accounted.displace (h : s.Accounted call.key) (hi : s.threads[i]? = some call)
    (hfrom : call.displacedSeq = none) {entry oldEntry : ReplayEntry}
    (hentry : entry.lastSeq = call.seq) (hold : s.shared.lastSeq call.key = some oldEntry.lastSeq)
    (hle : call.seq ≤ oldEntry.lastSeq) :
    Accounted
      { shared := s.shared.put call.key entry
        threads := s.threads.set i (call.goto (.displaced oldEntry)) } call.key where
  covered x hx := by
    rcases h.covered x hx with ⟨last, hlast, hx⟩ | hpending
    · -- what the entry covered is now covered by the check that displaced it
      rw [hold] at hlast
      cases hlast
      exact Or.inr ⟨_, Threads.mem_set_self hi _, rfl, _, rfl, hx⟩
    · exact Or.inr (displaced_of_ne hi hfrom hpending)
  backed last hlast := by
    dsimp only at hlast ⊢
    rw [CheckShared.lastSeq_put_self, hentry] at hlast
    cases hlast
    obtain ⟨x, hx, hlex⟩ := h.backed _ hold
    exact ⟨x, hx, UInt16.le_trans hle hlex⟩
  backedDisplaced c hc hkey v hv := by
    rcases Threads.eq_or_mem_of_mem_set hc with rfl | hc
    · cases hv
      exact h.backed _ hold
    · exact h.backedDisplaced c hc hkey v hv

/-- A step that puts an entry back over one that is not above it. -/
theorem Accounted.restore (h : s.Accounted call.key) (hi : s.threads[i]? = some call)
    {oldEntry : ReplayEntry} (hfrom : call.phase = .displaced oldEntry)
    (hforward : ∀ last, s.shared.lastSeq call.key = some last → last ≤ oldEntry.lastSeq)
    (hto : call'.displacedSeq = none) :
    Accounted
      { shared := s.shared.put call.key oldEntry, threads := s.threads.set i call' }
      call.key where
  covered x hx := by
    dsimp only
    rw [CheckShared.lastSeq_put_self]
    rcases h.covered x hx with ⟨last, hlast, hx⟩ | ⟨c, hc, hkey, v, hv, hx⟩
    · exact Or.inl ⟨_, rfl, UInt16.le_trans hx (hforward last hlast)⟩
    · by_cases hcall : c = call
      · rw [hcall, CheckCall.displacedSeq, hfrom] at hv
        cases hv
        exact Or.inl ⟨_, rfl, hx⟩
      · exact Or.inr ⟨c, Threads.mem_set_of_ne hi hc hcall, hkey, v, hv, hx⟩
  backed last hlast := by
    dsimp only at hlast ⊢
    rw [CheckShared.lastSeq_put_self] at hlast
    cases hlast
    refine h.backedDisplaced call (List.mem_of_getElem? hi) rfl _ ?_
    rw [CheckCall.displacedSeq, hfrom]
  backedDisplaced c hc hkey v hv := by
    rcases Threads.eq_or_mem_of_mem_set hc with rfl | hc
    · rw [hto] at hv
      cases hv
    · exact h.backedDisplaced c hc hkey v hv

/-- What it means for the next step of a check to go forward. -/
theorem goesForward_call {now : Instant} (hforward : s.goesForward (.advance i now) = true)
    (hi : s.threads[i]? = some call) : call.goesForward s.shared = true := by
  rw [goesForward, hi] at hforward
  exact hforward

theorem lt_of_goesForward (hforward : call.goesForward g = true) (hphase : call.phase = .loaded) :
    ∀ last, g.lastSeq call.key = some last → last < call.seq := by
  intro last hlast
  rw [CheckCall.goesForward, hphase, hlast] at hforward
  exact of_decide_eq_true hforward

theorem le_of_goesForward {oldEntry : ReplayEntry} (hforward : call.goesForward g = true)
    (hphase : call.phase = .displaced oldEntry) :
    ∀ last, g.lastSeq call.key = some last → last ≤ oldEntry.lastSeq := by
  intro last hlast
  rw [CheckCall.goesForward, hphase, hlast] at hforward
  exact of_decide_eq_true hforward

variable {shard : ReplayKey → ℕ} {s' : CheckState} {a : CheckAction}

/-- **What one step preserves**, as long as it goes forward: every accepted number is accounted
for. -/
theorem Accounted.step (h : s.Accounted key) (hforward : s.goesForward a = true)
    (hstep : CheckState.step shard s a = some s') : s'.Accounted key := by
  rcases Threads.step_cases hstep with
    ⟨request, rfl, rfl⟩ | ⟨i, now, call, g, call', rfl, hi, htick, rfl⟩
  · exact h.spawn request
  · have hcall := goesForward_call hforward hi
    have hcase := CheckCall.tick_cases htick
    obtain ⟨hcall', hframe⟩ := hcase.frame
    by_cases hkey : call.key = key
    · subst hkey
      cases hcase with
      | look phase hfrom hto => exact h.look hi hfrom hto
      | store entry hfrom hentry =>
          exact h.accept hi (CheckCall.displacedSeq_of_phase hfrom (by simp)) rfl hentry
            (lt_of_goesForward hcall hfrom)
      | insert entry hfrom hentry habove =>
          exact h.accept hi (CheckCall.displacedSeq_of_phase hfrom (by simp)) rfl hentry habove
      | displace entry oldEntry hfrom hentry hold hle =>
          exact h.displace hi (CheckCall.displacedSeq_of_phase hfrom (by simp)) hentry hold hle
      | restore oldEntry hfrom => exact h.restore hi hfrom (le_of_goesForward hcall hfrom) rfl
    · obtain ⟨hlast, hallowed⟩ := hframe key (Ne.symm hkey)
      exact h.other hi hkey hcall' hlast hallowed

/-- With no check in progress, the number on record is the greatest accepted one. -/
theorem Accounted.lastSeq_eq_max (h : s.Accounted key) (hquiet : s.Quiescent key) :
    s.shared.lastSeq key = (s.shared.allowed key).max? := by
  have hcovered : ∀ x ∈ s.shared.allowed key,
      ∃ last, s.shared.lastSeq key = some last ∧ x ≤ last := by
    intro x hx
    rcases h.covered x hx with hlast | ⟨c, hc, hkey, v, hv, -⟩
    · exact hlast
    · -- a check that has displaced an entry has no answer yet
      have hreturned := hquiet c hc hkey
      rw [CheckCall.isReturned] at hreturned
      rw [CheckCall.displacedSeq] at hv
      cases hphase : c.phase <;> simp [hphase] at hreturned hv
  cases hlast : s.shared.lastSeq key with
  | none =>
      have hnil : s.shared.allowed key = [] := by
        refine List.eq_nil_iff_forall_not_mem.2 fun x hx => ?_
        obtain ⟨last, hsome, -⟩ := hcovered x hx
        rw [hlast] at hsome
        cases hsome
      rw [hnil]
      rfl
  | some last =>
      have hle : ∀ x ∈ s.shared.allowed key, x ≤ last := by
        intro x hx
        obtain ⟨last', hsome, hx⟩ := hcovered x hx
        rw [hlast] at hsome
        cases hsome
        exact hx
      obtain ⟨x, hx, hlex⟩ := h.backed last hlast
      have heq : x = last := UInt16.le_antisymm (hle x hx) hlex
      exact (List.max?_eq_some_iff.2 ⟨heq ▸ hx, hle⟩).symm

/-! ### A source that was known from the start -/

/-- The accepted numbers of a known source ascend, the last of them is on record, and no check is on
the way to insert an entry for it. -/
structure Settled (s : CheckState) (key : ReplayKey) : Prop where
  known : s.shared.lastSeq key ≠ none
  last : s.shared.lastSeq key = (s.shared.allowed key).getLast?
  ascending : (s.shared.allowed key).Pairwise (· < ·)
  phases : ∀ c ∈ s.threads, c.key = key →
    c.phase ≠ .missed ∧ c.phase ≠ .counted ∧ c.displacedSeq = none

theorem settled_begin {cache : ReplayCache} (hkey : cache.lastSeq key ≠ none) :
    (CheckState.begin cache).Settled key where
  known := hkey
  last := by
    change cache.lastSeq key = (cache.lastSeq key).toList.getLast?
    cases cache.lastSeq key <;> rfl
  ascending := by
    change (cache.lastSeq key).toList.Pairwise (· < ·)
    cases cache.lastSeq key
    · exact List.Pairwise.nil
    · exact List.pairwise_singleton _ _
  phases c hc := by simp [CheckState.begin] at hc

/-- The phases of the checks after a step. -/
theorem Settled.phases_set (h : s.Settled key)
    (hto : call'.key = key →
      call'.phase ≠ .missed ∧ call'.phase ≠ .counted ∧ call'.displacedSeq = none) :
    ∀ c ∈ s.threads.set i call', c.key = key →
      c.phase ≠ .missed ∧ c.phase ≠ .counted ∧ c.displacedSeq = none := by
  intro c hc hkey
  rcases Threads.eq_or_mem_of_mem_set hc with rfl | hc
  · exact hto hkey
  · exact h.phases c hc hkey

/-- **What one step preserves** on a known source, as long as it goes forward. -/
theorem Settled.step (h : s.Settled key) (hforward : s.goesForward a = true)
    (hstep : CheckState.step shard s a = some s') : s'.Settled key := by
  rcases Threads.step_cases hstep with
    ⟨request, rfl, rfl⟩ | ⟨i, now, call, g, call', rfl, hi, htick, rfl⟩
  · refine ⟨h.known, h.last, h.ascending, fun c hc hkey => ?_⟩
    rcases List.mem_append.1 hc with hc | hc
    · exact h.phases c hc hkey
    · rw [List.mem_singleton.1 hc]
      exact ⟨by simp [CheckCall.start], by simp [CheckCall.start], rfl⟩
  · have hcall := goesForward_call hforward hi
    have hcase := CheckCall.tick_cases htick
    obtain ⟨hcall', hframe⟩ := hcase.frame
    by_cases hkey : call.key = key
    · subst hkey
      obtain ⟨hmissed, hcounted, hnone⟩ := h.phases call (List.mem_of_getElem? hi) rfl
      cases hcase with
      | look phase hfrom hto hmiss hcount =>
          refine ⟨h.known, h.last, h.ascending, h.phases_set fun _ => ⟨?_, ?_, hto⟩⟩
          · exact fun hphase => h.known (hmiss hphase)
          · exact fun hphase => hmissed (hcount hphase)
      | store entry hfrom hentry =>
          -- the number stored is above the one on record, which is the last accepted one
          refine ⟨?_, ?_, ?_, h.phases_set fun _ => ⟨by simp [CheckCall.goto],
            by simp [CheckCall.goto], rfl⟩⟩
          · rw [CheckShared.lastSeq_note, CheckShared.lastSeq_put_self]
            simp
          · rw [CheckShared.lastSeq_note, CheckShared.lastSeq_put_self, hentry,
              CheckShared.allowed_note_self, List.getLast?_concat]
          · rw [CheckShared.allowed_note_self, CheckShared.allowed_put]
            refine (Ascending.pairwise_concat_iff (r := fun a b : UInt16 => a < b)
              UInt16.lt_trans _ _).2 ⟨h.ascending, fun last hlast => ?_⟩
            exact lt_of_goesForward hcall hfrom last (h.last.trans hlast)
      | insert entry hfrom => exact absurd hfrom hcounted
      | displace entry oldEntry hfrom => exact absurd hfrom hcounted
      | restore oldEntry hfrom =>
          rw [CheckCall.displacedSeq, hfrom] at hnone
          cases hnone
    · obtain ⟨hlast, hallowed⟩ := hframe key (Ne.symm hkey)
      refine ⟨?_, ?_, ?_, h.phases_set fun hk => absurd (hcall'.symm.trans hk) hkey⟩
      · exact hlast ▸ h.known
      · exact hlast ▸ hallowed ▸ h.last
      · exact hallowed ▸ h.ascending

/-! ### Runs -/

/-- An accepted number stays accepted. -/
theorem allowed_prefix_step (hstep : CheckState.step shard s a = some s') :
    s.shared.allowed key <+: s'.shared.allowed key := by
  rcases Threads.step_cases hstep with
    ⟨request, rfl, rfl⟩ | ⟨i, now, call, g, call', rfl, hi, htick, rfl⟩
  · exact List.prefix_refl _
  · have hcase := CheckCall.tick_cases htick
    by_cases hkey : key = call.key
    · subst hkey
      cases hcase with
      | look phase => exact List.prefix_refl _
      | store entry | insert entry =>
          dsimp only
          rw [CheckShared.allowed_note_self, CheckShared.allowed_put]
          exact List.prefix_append _ _
      | displace entry | restore entry => exact List.prefix_refl _
    · exact (hcase.frame.2 key hkey).2 ▸ List.prefix_refl _

theorem allowed_prefix_run {as : List CheckAction}
    (hrun : Runs.run (CheckState.step shard) s as = some s') :
    s.shared.allowed key <+: s'.shared.allowed key :=
  Runs.invariant (P := fun t => s.shared.allowed key <+: t.shared.allowed key)
    (fun _ _ _ hP hstep => hP.trans (allowed_prefix_step hstep)) (List.prefix_refl _) hrun

/-- The run has only steps that go forward. -/
abbrev GoesForward (shard : ReplayKey → ℕ) (s : CheckState) (as : List CheckAction) : Prop :=
  Runs.Guarded (CheckState.step shard) (fun s a => s.goesForward a = true) s as

theorem Accounted.run {as : List CheckAction} (h : s.Accounted key)
    (hforward : GoesForward shard s as)
    (hrun : Runs.run (CheckState.step shard) s as = some s') : s'.Accounted key :=
  Runs.invariant_of_guarded (P := fun t => Accounted t key)
    (fun _ _ _ hP hforward hstep => hP.step hforward hstep) h hforward hrun

theorem Settled.run {as : List CheckAction} (h : s.Settled key)
    (hforward : GoesForward shard s as)
    (hrun : Runs.run (CheckState.step shard) s as = some s') : s'.Settled key :=
  Runs.invariant_of_guarded (P := fun t => Settled t key)
    (fun _ _ _ hP hforward hstep => hP.step hforward hstep) h hforward hrun

/-- **What concurrent checks agree on.**  Take any number of checks on any cache, and any order of
their atomic steps in which no store and no re-insertion puts a smaller number on record.  When no
check on a source is in progress, the number on record is the greatest accepted one; from one such
moment to a later one it does not go back; and on a source that was known from the start no number
is accepted twice. -/
theorem run_agreement (shard : ReplayKey → ℕ) (cache : ReplayCache)
    (before after : List CheckAction) (s t : CheckState)
    (hs : Runs.run (CheckState.step shard) (CheckState.begin cache) before = some s)
    (ht : Runs.run (CheckState.step shard) s after = some t)
    (hforward : GoesForward shard (CheckState.begin cache) (before ++ after)) :
    (∀ key, t.Quiescent key → t.shared.lastSeq key = (t.shared.allowed key).max?) ∧
      (∀ key, s.Quiescent key → t.Quiescent key → ∀ x, s.shared.lastSeq key = some x →
        ∃ y, t.shared.lastSeq key = some y ∧ x ≤ y) ∧
      ∀ key, cache.lastSeq key ≠ none → (t.shared.allowed key).Nodup := by
  obtain ⟨hbefore, hafter⟩ := (Runs.guarded_append _ _).1 hforward
  have haccs : ∀ key, s.Accounted key := fun key => (accounted_begin cache key).run hbefore hs
  have hacct : ∀ key, t.Accounted key := fun key => (haccs key).run (hafter s hs) ht
  refine ⟨fun key hquiet => (hacct key).lastSeq_eq_max hquiet, fun key hqs hqt x hx => ?_,
    fun key hkey => ?_⟩
  · -- what was the greatest accepted number is still an accepted number
    rw [(haccs key).lastSeq_eq_max hqs] at hx
    have hmem : x ∈ t.shared.allowed key :=
      (allowed_prefix_run ht).subset (List.max?_eq_some_iff.1 hx).1
    obtain ⟨y, hy⟩ : ∃ y, (t.shared.allowed key).max? = some y :=
      Option.isSome_iff_exists.1 (List.isSome_max?_of_mem hmem)
    exact ⟨y, ((hacct key).lastSeq_eq_max hqt).trans hy, (List.max?_eq_some_iff.1 hy).2 x hmem⟩
  · have hsettled := ((settled_begin hkey).run hbefore hs).run (hafter s hs) ht
    refine List.Pairwise.imp (fun {a b} (hlt : a < b) => ?_) hsettled.ascending
    rintro rfl
    exact UInt16.lt_irrefl a hlt

/-- A source whose last number is five. -/
def knownKey : ReplayKey := { tenantId := 1, sourceId := 100 }

/-- A cache that knows this source. -/
def knownCache : ReplayCache := ReplayCache.new.register knownKey 5 0

/-- Two checks one after the other, and then two at the same time that store in the order of their
numbers. -/
def forwardRun : List CheckAction × List CheckAction :=
  ([.spawn (knownKey, 6), .spawn (knownKey, 7), .advance 0 1, .advance 0 1, .advance 1 2,
      .advance 1 2],
    [.spawn (knownKey, 8), .spawn (knownKey, 9), .advance 2 3, .advance 3 3, .advance 2 4,
      .advance 3 5])

/-- The state after the first list. -/
def forwardMiddle : CheckState :=
  (Runs.run (CheckState.step fun _ => 0) (CheckState.begin knownCache) forwardRun.1).get (by decide)

/-- The state after both lists. -/
def forwardEnd : CheckState :=
  (Runs.run (CheckState.step fun _ => 0) forwardMiddle forwardRun.2).get (by decide)

/-- The checks agree, and the seven that is on record in the middle is not undercut. -/
theorem run_agreement_forwardRun :
    forwardEnd.shared.lastSeq knownKey = (forwardEnd.shared.allowed knownKey).max? ∧
      (∃ y, forwardEnd.shared.lastSeq knownKey = some y ∧ 7 ≤ y) ∧
      (forwardEnd.shared.allowed knownKey).Nodup ∧
      forwardEnd.shared.allowed knownKey = [5, 6, 7, 8, 9] := by
  obtain ⟨hmax, hgrows, hnodup⟩ := run_agreement (fun _ => 0) knownCache forwardRun.1 forwardRun.2
    forwardMiddle forwardEnd (Option.some_get _).symm (Option.some_get _).symm (by decide)
  exact ⟨hmax knownKey (by decide), hgrows knownKey (by decide) (by decide) 7 (by decide),
    hnodup knownKey (by decide), by decide⟩

/-- Two checks of numbers above the one on record: both load before either stores, and the greater
number is stored first. -/
def overtakenStore (first second : UInt16) : List CheckAction :=
  [.spawn (knownKey, first), .spawn (knownKey, second), .advance 0 1, .advance 1 1, .advance 1 2,
    .advance 0 3]

/-- With both checks finished, six is on record although seven was accepted; and a number is
accepted twice on a source that was known from the start. -/
theorem run_overtakenStore :
    (Runs.run (CheckState.step fun _ => 0) (CheckState.begin knownCache) (overtakenStore 6 7)).map
        (fun s => (s.threads.all CheckCall.isReturned, s.shared.lastSeq knownKey,
          s.shared.allowed knownKey)) = some (true, some 6, [5, 7, 6]) ∧
      (Runs.run (CheckState.step fun _ => 0) (CheckState.begin knownCache) (overtakenStore 6 6)).map
        (fun s => (s.threads.all CheckCall.isReturned, s.shared.lastSeq knownKey,
          s.shared.allowed knownKey)) = some (true, some 6, [5, 6, 6]) := by
  decide

end CheckState

end Bind19
