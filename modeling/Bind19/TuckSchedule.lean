/-
**Decisions do not depend on the schedule.**

Let the frames of each source be decided one after another, and let there be no more sources than
the cache has room for.  Then the threads may take their steps in any order, the clocks may show
anything, and the other sources may send what they like: what is decided about the frames of a
source is what the gate decides that has only these frames to look at, in the order in which they
arrive, and looks back at all the numbers that it has let through.

The gate with few sources always has room, so the ledger of all sources decides about the frames of
one source as a ledger of its own does.  The rest is an invariant of the run: the frames of a source
that are decided come before the one that is not, and they were decided as by its ledger.

Main definitions:

* `Bind19.GateCall.arrival`, `Bind19.GateCall.verdict` — a frame of a source, and the decision about
  it;
* `Bind19.GateState.Scheduled` — the invariant.

Main results:

* `Bind19.TuckLedger.decide_agree` — a ledger with room decides about a source as any other with the
  same numbers of that source;
* `Bind19.GateState.Scheduled.step` — what one step preserves;
* `Bind19.GateState.run_scheduleFree` — **the decisions about a source depend on its frames alone**.
-/

import Bind19.TuckRace

set_option relaxedAutoImplicit false
set_option autoImplicit false

namespace Bind19

/-! ### The ledger of one source -/

namespace TuckLedger

variable {ledger ledger' : TuckLedger} {call : TuckCall} {sourceId : UInt64} {seq : UInt16}
  {few : Finset UInt64}

/-- What is decided about a frame depends on the ledger only if a number is looked up. -/
theorem decide_cases (call : TuckCall) :
    (∃ decision, ∀ ledger : TuckLedger, ledger.decide call = (decision, ledger)) ∨
      ∃ seq, ∀ ledger : TuckLedger, ledger.decide call =
        if ledger.Admits call.sourceId seq then (.allow, ledger ++ [(call.sourceId, seq)])
        else (.reject, ledger) := by
  cases hpfp : call.frame.pfp with
  | none => exact Or.inl ⟨.noSap, fun ledger => by rw [decide, hpfp]⟩
  | some pfp =>
      cases hoverride : pfp.isCatastrophicOverride with
      | true =>
          refine Or.inl ⟨.catastrophicOverride, fun ledger => ?_⟩
          rw [decide, hpfp]
          dsimp only
          rw [if_pos hoverride]
      | false =>
          cases hsap : call.frame.sap with
          | none =>
              refine Or.inl ⟨.allow, fun ledger => ?_⟩
              rw [decide, hpfp, hsap]
              dsimp only
              rw [hoverride, if_neg Bool.false_ne_true]
          | some sap =>
              cases hbit : pfp.replayEnable with
              | false =>
                  refine Or.inl ⟨.allow, fun ledger => ?_⟩
                  rw [decide, hpfp, hsap]
                  dsimp only
                  rw [hoverride, if_neg Bool.false_ne_true, hbit, Bool.not_false, if_pos rfl]
              | true =>
                  refine Or.inr ⟨sap.seqCounter, fun ledger => ?_⟩
                  rw [decide, hpfp, hsap]
                  dsimp only
                  rw [hoverride, if_neg Bool.false_ne_true, hbit, Bool.not_true,
                    if_neg Bool.false_ne_true]

/-- With few sources there is room for every one of them. -/
theorem admits_iff_of_subset (hcard : few.card ≤ replayCacheMaxCapacity)
    (hsub : ledger.sources ⊆ few) (hmem : sourceId ∈ few) :
    ledger.Admits sourceId seq ↔ ∀ n ∈ ledger.numbers sourceId, n < seq := by
  refine ⟨fun h => h.1, fun h => ⟨h, ?_⟩⟩
  by_cases hknown : sourceId ∈ ledger.sources
  · exact Or.inl hknown
  · have hlt : ledger.sources.card < few.card :=
      Finset.card_lt_card ((Finset.ssubset_iff_of_subset hsub).2 ⟨sourceId, hmem, hknown⟩)
    exact Or.inr (Nat.lt_of_lt_of_le hlt hcard)

theorem mem_sources_concat {sourceId' : UInt64} :
    sourceId' ∈ sources (ledger ++ [(sourceId, seq)]) ↔
      sourceId' ∈ ledger.sources ∨ sourceId' = sourceId := by
  rw [sources, sources, List.mem_toFinset, List.mem_toFinset, List.map_append, List.mem_append,
    List.map_singleton, List.mem_singleton]

theorem sources_decide_subset (hsub : ledger.sources ⊆ few) (hmem : call.sourceId ∈ few) :
    (ledger.decide call).2.sources ⊆ few := by
  rcases decide_cases call with ⟨decision, hdecide⟩ | ⟨seq, hdecide⟩
  · rw [hdecide]
    exact hsub
  · rw [hdecide]
    split
    · intro sourceId' hsource'
      rcases mem_sources_concat.1 hsource' with hold | rfl
      · exact hsub hold
      · exact hmem
    · exact hsub

/-- A frame leaves the numbers of the other sources alone. -/
theorem numbers_decide_of_ne (hne : sourceId ≠ call.sourceId) :
    (ledger.decide call).2.numbers sourceId = ledger.numbers sourceId := by
  rcases decide_cases call with ⟨decision, hdecide⟩ | ⟨seq, hdecide⟩
  · rw [hdecide]
  · rw [hdecide]
    split
    · rw [numbers_concat, if_neg hne]
    · rfl

/-- **A ledger with room decides about a source as any other with the same numbers of that
source.** -/
theorem decide_agree (hcard : few.card ≤ replayCacheMaxCapacity)
    (hsub : ledger.sources ⊆ few) (hsub' : ledger'.sources ⊆ few)
    (hmem : call.sourceId ∈ few)
    (hnumbers : ledger.numbers call.sourceId = ledger'.numbers call.sourceId) :
    (ledger.decide call).1 = (ledger'.decide call).1 ∧
      (ledger.decide call).2.numbers call.sourceId =
        (ledger'.decide call).2.numbers call.sourceId := by
  rcases decide_cases call with ⟨decision, hdecide⟩ | ⟨seq, hdecide⟩
  · rw [hdecide, hdecide]
    exact ⟨rfl, hnumbers⟩
  · have hadmits : ledger.Admits call.sourceId seq ↔ ledger'.Admits call.sourceId seq := by
      rw [admits_iff_of_subset hcard hsub hmem, admits_iff_of_subset hcard hsub' hmem, hnumbers]
    rw [hdecide, hdecide]
    by_cases h : ledger'.Admits call.sourceId seq
    · rw [if_pos h, if_pos (hadmits.2 h), numbers_concat, numbers_concat, hnumbers]
      exact ⟨rfl, rfl⟩
    · rw [if_neg h, if_neg fun h' => h (hadmits.1 h')]
      exact ⟨rfl, hnumbers⟩

theorem sources_final_subset {calls : List TuckCall}
    (hcalls : ∀ call ∈ calls, call.sourceId ∈ few) :
    (Transcript.final TuckLedger.decide [] calls).sources ⊆ few := by
  induction calls using List.reverseRecOn with
  | nil => exact Finset.empty_subset few
  | append_singleton calls call ih =>
      rw [Transcript.final_concat]
      refine sources_decide_subset (ih fun c hc => hcalls c (List.mem_append_left _ hc)) ?_
      exact hcalls call (List.mem_append_right _ (List.mem_singleton_self call))

end TuckLedger

/-! ### The frames of one source -/

namespace GateCall

/-- The frame, if it is from the source.  The ledger does not look at the clocks. -/
def arrival (sourceId : UInt64) (call : GateCall) : Option TuckCall :=
  if call.sourceId = sourceId then some (TuckCall.ofRequest (call.request, none, 0)) else none

/-- The frame and the decision about it, if it is from the source and decided. -/
def verdict (sourceId : UInt64) (call : GateCall) : Option (TuckCall × TuckDecision) :=
  if call.sourceId = sourceId then
    call.outcome.map fun decision => (TuckCall.ofRequest (call.request, none, 0), decision)
  else none

variable {sourceId : UInt64} {call : GateCall}

theorem arrival_of_ne (h : call.sourceId ≠ sourceId) : call.arrival sourceId = none := if_neg h

theorem verdict_of_ne (h : call.sourceId ≠ sourceId) : call.verdict sourceId = none := if_neg h

theorem verdict_of_outcome_eq_none (h : call.outcome = none) : call.verdict sourceId = none := by
  rw [verdict, h, Option.map_none, ite_self]

end GateCall

namespace GateState

/-- Of the frames of a source only the last may be undecided. -/
def Successive (threads : List GateCall) : Prop :=
  threads.Pairwise fun call call' => call.sourceId = call'.sourceId → call.outcome.isSome = true

variable {threads before after : List GateCall} {call call' : GateCall} {sourceId : UInt64}

/-- No frame of the source of an undecided one comes after it. -/
theorem Successive.ne_of_mem (h : Successive (before ++ call :: after))
    (hnone : call.outcome = none) (hmem : call' ∈ after) : call'.sourceId ≠ call.sourceId := by
  intro hsame
  obtain ⟨-, hrest, -⟩ := List.pairwise_append.1 h
  have hsome := (List.pairwise_cons.1 hrest).1 call' hmem hsame.symm
  rw [hnone] at hsome
  cases hsome

theorem Successive.append (h : Successive threads)
    (hnew : ∀ x ∈ threads, x.sourceId = call.sourceId → x.outcome.isSome = true) :
    Successive (threads ++ [call]) := by
  refine List.pairwise_append.2 ⟨h, List.pairwise_singleton _ _, fun x hx y hy hsame => ?_⟩
  rw [List.mem_singleton.1 hy] at hsame
  exact hnew x hx hsame

theorem Successive.set (h : Successive (before ++ call :: after)) (hnone : call.outcome = none)
    (hsame : call'.sourceId = call.sourceId) : Successive (before ++ call' :: after) := by
  have hafter : ∀ y ∈ after, y.sourceId ≠ call.sourceId := fun y hy => h.ne_of_mem hnone hy
  obtain ⟨hbefore, hrest, hcross⟩ := List.pairwise_append.1 h
  refine List.pairwise_append.2 ⟨hbefore, List.pairwise_cons.2 ⟨fun y hy hsource => ?_,
    (List.pairwise_cons.1 hrest).2⟩, fun x hx y hy hsource => ?_⟩
  · rw [hsame] at hsource
    exact absurd hsource.symm (hafter y hy)
  · rcases List.mem_cons.1 hy with rfl | hy
    · exact hcross x hx call List.mem_cons_self (hsource.trans hsame)
    · exact hcross x hx y (List.mem_cons_of_mem _ hy) hsource

/-- The decided frames of a source come first, and at most one is undecided. -/
theorem Successive.exists_waiting (h : Successive threads) (sourceId : UInt64) :
    ∃ waiting, threads.filterMap (GateCall.arrival sourceId) =
      (threads.filterMap (GateCall.verdict sourceId)).map Prod.fst ++ waiting ∧
        waiting.length ≤ 1 := by
  induction threads with
  | nil => exact ⟨[], rfl, Nat.zero_le 1⟩
  | cons call threads ih =>
      obtain ⟨hcall, hrest⟩ := List.pairwise_cons.1 h
      obtain ⟨waiting, heq, hle⟩ := ih hrest
      by_cases hsource : call.sourceId = sourceId
      · cases houtcome : call.outcome with
        | some decision =>
            refine ⟨waiting, ?_, hle⟩
            rw [List.filterMap_cons, List.filterMap_cons, GateCall.arrival, GateCall.verdict,
              if_pos hsource, if_pos hsource, houtcome]
            dsimp only [Option.map_some]
            rw [heq, List.map_cons, List.cons_append]
        | none =>
            -- no other frame of the source has arrived
            have hother : ∀ y ∈ threads, y.sourceId ≠ sourceId := by
              intro y hy hy'
              have hsome := hcall y hy (hsource.trans hy'.symm)
              rw [houtcome] at hsome
              cases hsome
            refine ⟨[TuckCall.ofRequest (call.request, none, 0)], ?_, Nat.le_refl 1⟩
            have harrivals : threads.filterMap (GateCall.arrival sourceId) = [] :=
              List.filterMap_eq_nil_iff.2 fun y hy => GateCall.arrival_of_ne (hother y hy)
            have hverdicts : threads.filterMap (GateCall.verdict sourceId) = [] :=
              List.filterMap_eq_nil_iff.2 fun y hy => GateCall.verdict_of_ne (hother y hy)
            rw [List.filterMap_cons, List.filterMap_cons,
              GateCall.verdict_of_outcome_eq_none houtcome, GateCall.arrival, if_pos hsource,
              harrivals, hverdicts]
            rfl
      · refine ⟨waiting, ?_, hle⟩
        rw [List.filterMap_cons, List.filterMap_cons, GateCall.arrival_of_ne hsource,
          GateCall.verdict_of_ne hsource]
        exact heq

/-- A decision is added to those about its source. -/
theorem filterMap_verdict_set {decision : TuckDecision}
    (h : Successive (before ++ call :: after)) (hnone : call.outcome = none)
    (hrequest : call'.request = call.request) (hdecision : call'.outcome = some decision)
    (sourceId : UInt64) :
    (before ++ call' :: after).filterMap (GateCall.verdict sourceId) =
      (before ++ call :: after).filterMap (GateCall.verdict sourceId) ++
        if call.sourceId = sourceId then
          [(TuckCall.ofRequest (call.request, none, 0), decision)]
        else [] := by
  have hsame : call'.sourceId = call.sourceId := congrArg Prod.snd hrequest
  rw [List.filterMap_append, List.filterMap_append, List.filterMap_cons, List.filterMap_cons,
    GateCall.verdict_of_outcome_eq_none hnone]
  by_cases hsource : call.sourceId = sourceId
  · have hafter : after.filterMap (GateCall.verdict sourceId) = [] :=
      List.filterMap_eq_nil_iff.2 fun y hy =>
        GateCall.verdict_of_ne (hsource ▸ h.ne_of_mem hnone hy)
    rw [if_pos hsource, GateCall.verdict, if_pos (hsame.trans hsource), hdecision, hrequest,
      hafter]
    simp
  · rw [if_neg hsource, GateCall.verdict_of_ne (hsame ▸ hsource), List.append_nil]

/-! ### The invariant -/

/-- The decisions about the frames of a source, in the order in which these have arrived. -/
def verdicts (s : GateState) (sourceId : UInt64) : List (TuckCall × TuckDecision) :=
  s.threads.filterMap (GateCall.verdict sourceId)

/-- The numbers that a source has had let through, if its frames are the only ones. -/
def numbersAlone (s : GateState) (sourceId : UInt64) : List UInt16 :=
  (Transcript.final TuckLedger.decide [] ((s.verdicts sourceId).map Prod.fst)).numbers sourceId

/-- The frames of each source are decided one after another, as by a ledger of its own; and the
gate remembers a ledger that has the same numbers of each source. -/
structure Scheduled (few : Finset UInt64) (s : GateState) (ledger : TuckLedger) : Prop where
  exclusive : s.Exclusive
  successive : Successive s.threads
  within : ∀ call ∈ s.threads, call.sourceId ∈ few
  sources : ledger.sources ⊆ few
  remembers : s.shared.gate.processor.Remembers ledger
  numbers : ∀ sourceId, ledger.numbers sourceId = s.numbersAlone sourceId
  answers : ∀ sourceId, (s.verdicts sourceId).map Prod.snd =
    (Transcript.transcript TuckLedger.decide [] ((s.verdicts sourceId).map Prod.fst)).map
      Exchange.answer

variable {sha256 : List UInt8 → Digest} {shard : ReplayKey → ℕ} {s s' : GateState}
  {few : Finset UInt64} {ledger : TuckLedger} {a : GateAction} {g : GateShared}

theorem scheduled_init (few : Finset UInt64) (tenantId : UInt64) :
    Scheduled few (init tenantId) [] where
  exclusive := exclusive_init tenantId
  successive := List.Pairwise.nil
  within call hcall := by cases hcall
  sources := Finset.empty_subset few
  remembers := FrameProcessor.remembers_new tenantId
  numbers _ := rfl
  answers _ := rfl

/-- A source that is not on record finds room. -/
theorem Scheduled.len_lt (h : Scheduled few s ledger) (hcard : few.card ≤ replayCacheMaxCapacity)
    (hmem : sourceId ∈ few)
    (hentry : s.shared.checks.cache.entries.get? (s.shared.gate.processor.key sourceId) = none) :
    s.shared.checks.cache.len < replayCacheMaxCapacity := by
  have hlast : (ledger.numbers sourceId).getLast? = none := by
    rw [← h.remembers.lastSeq, FrameProcessor.lastSeq, ReplayCache.lastSeq]
    exact Option.map_eq_none_iff.2 hentry
  have hnumbers : ledger.numbers sourceId = [] := List.getLast?_eq_none_iff.1 hlast
  have hadmits : ledger.Admits sourceId 0 := by
    rw [TuckLedger.admits_iff_of_subset hcard h.sources hmem, hnumbers]
    exact fun n hn => absurd hn List.not_mem_nil
  have hlen : s.shared.checks.cache.len = ledger.sources.card := h.remembers.len
  rw [hlen]
  exact hadmits.2.resolve_left fun hknown => TuckLedger.mem_sources_iff.1 hknown hnumbers

/-- Few sources always find room. -/
theorem Scheduled.roomAtInsertion (h : Scheduled few s ledger)
    (hcard : few.card ≤ replayCacheMaxCapacity) (a : GateAction) :
    s.roomAtInsertion a = true := by
  cases a with
  | spawn request => rfl
  | advance i input =>
      rw [GateState.roomAtInsertion]
      cases hi : s.threads[i]? with
      | none => rfl
      | some call =>
          obtain ⟨frame, sourceId, phase⟩ := call
          have hmem := List.mem_of_getElem? hi
          cases phase with
          | called | handling c | decided decision => rfl
          | checking c =>
              obtain ⟨-, hkey, -⟩ := h.exclusive.sound _ hmem
              dsimp only
              rw [CheckCall.roomAtInsertion]
              cases c.phase with
              | started | loaded | missed | displaced oldEntry | returned result => rfl
              | counted =>
                  cases hentry : s.shared.checks.cache.entries.get? c.key with
                  | some entry => rfl
                  | none =>
                      rw [hkey] at hentry
                      have hlt := h.len_lt hcard (h.within _ hmem) hentry
                      have hlt : s.shared.checks.cache.entries.len < replayCacheMaxCapacity := hlt
                      simp [hlt]

/-- A step after which the gate is the same, and as many frames are decided. -/
theorem Scheduled.quiet (h : Scheduled few s ledger) (hexclusive : s'.Exclusive)
    (hsuccessive : Successive s'.threads) (hwithin : ∀ call ∈ s'.threads, call.sourceId ∈ few)
    (hgate : s'.shared.gate = s.shared.gate)
    (hverdicts : ∀ sourceId, s'.verdicts sourceId = s.verdicts sourceId) :
    Scheduled few s' ledger where
  exclusive := hexclusive
  successive := hsuccessive
  within := hwithin
  sources := h.sources
  remembers := hgate ▸ h.remembers
  numbers sourceId := by
    rw [numbersAlone, hverdicts]
    exact h.numbers sourceId
  answers sourceId := by
    rw [hverdicts]
    exact h.answers sourceId

/-- A call begins. -/
theorem Scheduled.spawn (h : Scheduled few s ledger) {request : BindFrame × UInt64}
    (hone : s.oneAtATime (.spawn request) = true) (hmem : request.2 ∈ few)
    (hexclusive : Exclusive { s with threads := s.threads ++ [GateCall.start request] }) :
    Scheduled few { s with threads := s.threads ++ [GateCall.start request] } ledger := by
  refine h.quiet hexclusive (h.successive.append fun call hcall hsame => ?_) (fun call hcall => ?_)
    rfl fun sourceId => ?_
  · have hother : (call.source != some request.2) = true := List.all_eq_true.1 hone call hcall
    rw [GateCall.outcome]
    rw [GateCall.source] at hother
    cases hphase : call.phase with
    | decided decision => rfl
    | called | handling c | checking c =>
        rw [hphase] at hother
        exact absurd (congrArg some hsame) (bne_iff_ne.1 hother)
  · rcases List.mem_append.1 hcall with hcall | hcall
    · exact h.within call hcall
    · rw [List.mem_singleton.1 hcall]
      exact hmem
  · have hnew : (GateCall.start request).verdict sourceId = none :=
      GateCall.verdict_of_outcome_eq_none rfl
    rw [verdicts, verdicts, List.filterMap_append, List.filterMap_cons_none hnew]
    exact List.append_nil _

/-- The ledger of one source names only known sources. -/
theorem Scheduled.sources_alone (h : Scheduled few s ledger) (sourceId : UInt64) :
    (Transcript.final TuckLedger.decide [] ((s.verdicts sourceId).map Prod.fst)).sources ⊆ few := by
  refine TuckLedger.sources_final_subset fun call hcall => ?_
  obtain ⟨verdict, hverdict, rfl⟩ := List.mem_map.1 hcall
  obtain ⟨thread, hthread, heq⟩ := List.mem_filterMap.1 hverdict
  rw [GateCall.verdict] at heq
  split at heq
  · obtain ⟨decision, -, rfl⟩ := Option.map_eq_some_iff.1 heq
    exact h.within thread hthread
  · cases heq

/-- A decision is made. -/
theorem Scheduled.settle (h : Scheduled few s ledger) (hcard : few.card ≤ replayCacheMaxCapacity)
    {i : ℕ} {input : SystemTime × Instant} {decision : TuckDecision}
    (hi : s.threads[i]? = some call) (hnone : call.outcome = none)
    (hrequest : call'.request = call.request) (hdecision : call'.outcome = some decision)
    (hserve : s.shared.gate.serve sha256 (call.request, input) = (decision, g.gate))
    (hexclusive : Exclusive { shared := g, threads := s.threads.set i call' }) :
    ∃ ledger', Scheduled few { shared := g, threads := s.threads.set i call' } ledger' := by
  let frame := TuckCall.ofRequest (call.request, none, 0)
  have hmem : frame.sourceId ∈ few := h.within call (List.mem_of_getElem? hi)
  have hsame : call'.sourceId = call.sourceId := congrArg Prod.snd hrequest
  obtain ⟨before, after, heq, hset⟩ := Threads.exists_append_of_getElem? hi
  have hsuccessive := h.successive
  rw [heq] at hsuccessive
  -- the ledger decides as the gate does
  have hgate : (s.shared.gate.serve sha256 (call.request, input)).1 = (ledger.decide frame).1 ∧
      (s.shared.gate.serve sha256 (call.request, input)).2.processor.Remembers
        (ledger.decide frame).2 :=
    TuckGate.decide_of_remembers h.remembers (TuckCall.ofRequest (call.request, input))
  rw [hserve] at hgate
  obtain ⟨hanswer, hremembers⟩ := hgate
  -- and so does the ledger of the source
  obtain ⟨halike, hnumbers⟩ := TuckLedger.decide_agree hcard h.sources
    (h.sources_alone frame.sourceId) hmem (h.numbers frame.sourceId)
  have hverdicts (sourceId : UInt64) :
      verdicts { shared := g, threads := s.threads.set i call' } sourceId =
        s.verdicts sourceId ++ if call.sourceId = sourceId then [(frame, decision)] else [] := by
    rw [verdicts, verdicts, hset, heq]
    exact filterMap_verdict_set hsuccessive hnone hrequest hdecision sourceId
  refine ⟨(ledger.decide frame).2, hexclusive, ?_, ?_,
    TuckLedger.sources_decide_subset h.sources hmem, hremembers, fun sourceId => ?_,
    fun sourceId => ?_⟩
  · dsimp only
    rw [hset]
    exact hsuccessive.set hnone hsame
  · intro x hx
    rcases Threads.eq_or_mem_of_mem_set hx with rfl | hx
    · rw [hsame]
      exact hmem
    · exact h.within x hx
  · rw [numbersAlone, hverdicts]
    by_cases hsource : call.sourceId = sourceId
    · subst hsource
      rw [if_pos rfl, List.map_append, List.map_singleton, Transcript.final_concat]
      exact hnumbers
    · rw [if_neg hsource, List.append_nil,
        TuckLedger.numbers_decide_of_ne fun h' => hsource h'.symm]
      exact h.numbers sourceId
  · rw [hverdicts]
    by_cases hsource : call.sourceId = sourceId
    · subst hsource
      rw [if_pos rfl, List.map_append, List.map_append, List.map_singleton, List.map_singleton,
        Transcript.transcript_concat, List.map_append, List.map_singleton, ← h.answers]
      exact congrArg _ (congrArg (fun d => [d]) (hanswer.trans halike))
    · rw [if_neg hsource, List.append_nil]
      exact h.answers sourceId

/-- The step begins no decision about a frame of an unknown source. -/
def Among (few : Finset UInt64) : GateAction → Prop
  | .spawn request => request.2 ∈ few
  | .advance _ _ => True

/-- **What one step preserves.** -/
theorem Scheduled.step (h : Scheduled few s ledger) (hcard : few.card ≤ replayCacheMaxCapacity)
    (hamong : Among few a) (hone : s.oneAtATime a = true)
    (hstep : GateState.step sha256 shard s a = some s') : ∃ ledger', Scheduled few s' ledger' := by
  have horderly : s.orderly a = true := by
    rw [orderly, hone, h.roomAtInsertion hcard]
    rfl
  have hexclusive := h.exclusive.step horderly hstep
  rcases Threads.step_cases hstep with
    ⟨request, rfl, rfl⟩ | ⟨i, input, call, g, call', rfl, hi, htick, rfl⟩
  · exact ⟨ledger, h.spawn hone hamong hexclusive⟩
  · have hmove := GateCall.tick_cases htick
    obtain ⟨-, hnone⟩ := hmove.source_eq
    have hexplained := h.exclusive.explained horderly hi htick
    cases houtcome : call'.outcome with
    | some decision =>
        have hne : call'.outcome ≠ call.outcome := by
          rw [houtcome, hnone]
          simp
        obtain ⟨-, answer, hanswer, hserve⟩ := hexplained.settled hne
        obtain rfl := Option.some.inj (houtcome.symm.trans hanswer)
        exact h.settle hcard hi hnone hmove.request_eq houtcome hserve hexclusive
    | none =>
        have hsame : call'.sourceId = call.sourceId := congrArg Prod.snd hmove.request_eq
        obtain ⟨before, after, heq, hset⟩ := Threads.exists_append_of_getElem? hi
        have hsuccessive := h.successive
        rw [heq] at hsuccessive
        refine ⟨ledger, h.quiet hexclusive ?_ (fun x hx => ?_)
          (hexplained.quiet (houtcome.trans hnone.symm)) fun sourceId => ?_⟩
        · dsimp only
          rw [hset]
          exact hsuccessive.set hnone hsame
        · rcases Threads.eq_or_mem_of_mem_set hx with rfl | hx
          · rw [hsame]
            exact h.within call (List.mem_of_getElem? hi)
          · exact h.within x hx
        · refine Threads.filterMap_set_of_eq hi ?_
          rw [GateCall.verdict_of_outcome_eq_none houtcome,
            GateCall.verdict_of_outcome_eq_none hnone]

/-! ### Runs -/

/-- **The decisions about a source depend on its frames alone.**  Take any run of decisions on a
new gate in which a decision begins only when no other frame of its source is under way, and which
names no more sources than the cache has room for.  Of the frames of a source, in the order in which
they arrive, at most the last is undecided; and the decisions about the others are those of a ledger
that has only these frames to look at.  Neither the order of the steps, nor the clocks, nor the
other sources, nor the hash function matter. -/
theorem run_scheduleFree (sha256 : List UInt8 → Digest) (shard : ReplayKey → ℕ) (tenantId : UInt64)
    (actions : List GateAction) (t : GateState)
    (hfew : ((actions.filterMap Threads.Action.spawned).map Prod.snd).toFinset.card ≤
      replayCacheMaxCapacity)
    (hone : Runs.Guarded (GateState.step sha256 shard) (fun s a => s.oneAtATime a = true)
      (init tenantId) actions)
    (hrun : Runs.run (GateState.step sha256 shard) (init tenantId) actions = some t)
    (sourceId : UInt64) :
    (t.verdicts sourceId).map Prod.snd =
        (Transcript.transcript TuckLedger.decide [] ((t.verdicts sourceId).map Prod.fst)).map
          Exchange.answer ∧
      ∃ waiting, t.threads.filterMap (GateCall.arrival sourceId) =
        (t.verdicts sourceId).map Prod.fst ++ waiting ∧ waiting.length ≤ 1 := by
  let few := ((actions.filterMap Threads.Action.spawned).map Prod.snd).toFinset
  have hamong : ∀ a ∈ actions, Among few a := by
    intro a ha
    cases a with
    | spawn request =>
        have hspawned : request ∈ actions.filterMap Threads.Action.spawned :=
          List.mem_filterMap.2 ⟨_, ha, rfl⟩
        exact List.mem_toFinset.2 (List.mem_map_of_mem hspawned)
    | advance i input => trivial
  obtain ⟨ledger, h⟩ := Runs.invariant_of_guarded
    (P := fun s => ∃ ledger, Scheduled few s ledger)
    (fun s a s' ⟨ledger, h⟩ hguard hstep => h.step hfew hguard.2 hguard.1 hstep)
    ⟨[], scheduled_init few tenantId⟩ (hone.and (Runs.guarded_of_forall_mem hamong _)) hrun
  exact ⟨h.answers sourceId, h.successive.exists_waiting sourceId⟩

/-- A frame is let through and then replayed, while a hard override is under way. -/
def replayedDecision : List GateAction :=
  [.spawn (BindFrame.overrideFrame, 100), .spawn (BindFrame.sampleFrame, 7),
    .advance 1 (none, 0), .advance 0 (none, 0), .advance 1 (none, 1), .advance 1 (none, 2),
    .advance 1 (none, 3), .advance 0 (none, 4), .advance 1 (none, 5),
    .spawn (BindFrame.sampleFrame, 7), .advance 2 (none, 6), .advance 0 (none, 7),
    .advance 2 (none, 8), .advance 2 (none, 9)]

/-- The state afterwards. -/
def afterReplayedDecision : GateState :=
  (Runs.run (GateState.step sampleSha256 fun _ => 0) (init 1) replayedDecision).get
    (by decide +kernel)

/-- The replay is held back, whatever the override has come to. -/
theorem run_scheduleFree_replayedDecision :
    (afterReplayedDecision.verdicts 7).map Prod.snd = [.allow, .reject] :=
  (run_scheduleFree sampleSha256 (fun _ => 0) 1 replayedDecision afterReplayedDecision
    (by decide +kernel) (by decide +kernel) (Option.some_get _).symm 7).1.trans (by decide +kernel)

end GateState

end Bind19
