/-
**Concurrent calls explained by sequential ones.**

Threads that serve calls on shared data are easy to use if what they do together can be explained by
a machine that serves the calls one after another: every call takes effect in one of its steps, at
once, and its answer is the one that the machine gives at that moment.  Here a thread takes effect
in the step in which its outcome is settled, with the input of that step or with one that it has
read before.  If every step that does not settle an outcome leaves alone what is seen of the shared
data, and every step that does changes it as the machine would, then the whole run is explained by
the calls in the order in which they take effect.  A call takes effect between its start and its
return, so this order agrees with the real one wherever one call returns before another starts.

Main definitions:

* `Threads.effects` — the calls of a run in the order in which they take effect;
* `Threads.Explained` — a step is explained by the sequential machine;
* `Threads.Linearized` — the run is explained by its effects.

Main results:

* `Threads.effects_append` — the effects of two runs after each other;
* `Threads.linearized_of_explained` — **if every step is explained, the run is**.
-/

import Bind19.Runs
import Bind19.Threads
import Bind19.Transcript

set_option relaxedAutoImplicit false
set_option autoImplicit false

namespace Threads

variable {G T R I M O : Type*} {start : R → T} {tick : State G T → T → I → Option (G × T)}

/-- The outcome of a thread, if it is settled. -/
def outcomeAt (outcome : T → Option O) (s : State G T) (i : ℕ) : Option O :=
  s.threads[i]?.bind outcome

section Effects

variable (start tick) (outcome : T → Option O) (request : T → R) (reading : T → I → I)

/-- The call that takes effect with an action, with its thread and the input that it goes by. -/
def effect (s : State G T) : Action R I → Option (ℕ × R × I)
  | .spawn _ => none
  | .advance i input =>
      match s.threads[i]? with
      | none => none
      | some t =>
          match tick s t input with
          | none => none
          | some (_, t') =>
              if (outcome t).isNone && (outcome t').isSome then
                some (i, request t, reading t input)
              else none

/-- The calls of a run in the order in which they take effect. -/
def effects (s : State G T) : List (Action R I) → List (ℕ × R × I)
  | [] => []
  | a :: as =>
      match step start tick s a with
      | none => []
      | some s' => (effect tick outcome request reading s a).toList ++ effects s' as

variable {start tick outcome request reading}

theorem effects_cons {s s' : State G T} {a : Action R I} (h : step start tick s a = some s')
    (as : List (Action R I)) :
    effects start tick outcome request reading s (a :: as) =
      (effect tick outcome request reading s a).toList ++
        effects start tick outcome request reading s' as := by
  rw [effects, h]

/-- The effects of two runs after each other. -/
theorem effects_append {s u : State G T} {as : List (Action R I)}
    (hrun : Runs.run (step start tick) s as = some u) (bs : List (Action R I)) :
    effects start tick outcome request reading s (as ++ bs) =
      effects start tick outcome request reading s as ++
        effects start tick outcome request reading u bs := by
  induction as generalizing s with
  | nil =>
      obtain rfl := Option.some.inj hrun
      rfl
  | cons a as ih =>
      obtain ⟨s', hs', hrun⟩ := (Runs.run_cons_eq_some_iff _).1 hrun
      rw [List.cons_append, effects_cons hs', effects_cons hs', ih hrun, List.append_assoc]

end Effects

/-! ### Steps and runs that are explained -/

section Explained

variable (machine : M → R × I → O × M) (view : G → M) (outcome : T → Option O) (request : T → R)
  (reading : T → I → I)

/-- A step of the thread `t` is explained by the sequential machine. -/
structure Explained (s : State G T) (t : T) (input : I) (g : G) (t' : T) : Prop where
  /-- The thread goes on serving its call. -/
  request_eq : request t' = request t
  /-- A step that does not settle the outcome changes nothing that is seen. -/
  quiet : outcome t' = outcome t → view g = view s.shared
  /-- A step that does is the one of the machine. -/
  settled : outcome t' ≠ outcome t → outcome t = none ∧
    ∃ answer, outcome t' = some answer ∧
      machine (view s.shared) (request t, reading t input) = (answer, view g)

/-- The run from `s` to `u` is explained by a list of calls that take effect one after another. -/
structure Linearized (s u : State G T) (es : List (ℕ × R × I)) : Prop where
  /-- What is seen afterwards is what the machine leaves. -/
  final : view u.shared = Transcript.final machine (view s.shared) (es.map Prod.snd)
  /-- The calls have the outcomes that the machine gives. -/
  answers : List.Forall₂ (fun e x => outcomeAt outcome u e.1 = some x.answer) es
    (Transcript.transcript machine (view s.shared) (es.map Prod.snd))
  /-- Every thread takes effect once at most. -/
  nodup : (es.map Prod.fst).Nodup
  /-- The threads that take effect are those whose outcome is settled meanwhile. -/
  mem_iff : ∀ i, i ∈ es.map Prod.fst ↔
    outcomeAt outcome s i = none ∧ (outcomeAt outcome u i).isSome = true
  /-- They serve their own calls. -/
  requests : ∀ e ∈ es, u.threads[e.1]?.map request = some e.2.1

end Explained

variable {machine : M → R × I → O × M} {view : G → M} {outcome : T → Option O} {request : T → R}
  {reading : T → I → I} {guard : State G T → Action R I → Prop} {P : State G T → Prop}

/-- The outcomes of the calls, in order. -/
theorem Linearized.map_outcomeAt {s u : State G T} {es : List (ℕ × R × I)}
    (h : Linearized machine view outcome request s u es) :
    es.map (fun e => outcomeAt outcome u e.1) =
      ((Transcript.transcript machine (view s.shared) (es.map Prod.snd)).map Exchange.answer).map
        some := by
  rw [← List.forall₂_eq_eq_eq, List.map_map, List.forall₂_map_left_iff,
    List.forall₂_map_right_iff]
  exact h.answers

/-- A step that does not settle the outcome. -/
theorem Explained.of_quiet {s : State G T} {t t' : T} {input : I} {g : G}
    (hrequest : request t' = request t) (hsame : outcome t' = outcome t)
    (hview : view g = view s.shared) :
    Explained machine view outcome request reading s t input g t' where
  request_eq := hrequest
  quiet _ := hview
  settled hne := absurd hsame hne

/-- A step that settles the outcome. -/
theorem Explained.of_settled {s : State G T} {t t' : T} {input : I} {g : G} {answer : O}
    (hrequest : request t' = request t) (hnone : outcome t = none)
    (hanswer : outcome t' = some answer)
    (hmachine : machine (view s.shared) (request t, reading t input) = (answer, view g)) :
    Explained machine view outcome request reading s t input g t' where
  request_eq := hrequest
  quiet hsame := by
    rw [hanswer, hnone] at hsame
    cases hsame
  settled _ := ⟨hnone, answer, hanswer, hmachine⟩

variable (machine view request reading) in
/-- What an action does to the outcomes. -/
theorem outcomeAt_step (hstart : ∀ r, outcome (start r) = none)
    {s s' : State G T} {a : Action R I}
    (hexplained : ∀ i t input g t', a = .advance i input → s.threads[i]? = some t →
      tick s t input = some (g, t') → Explained machine view outcome request reading s t input g t')
    (h : step start tick s a = some s') :
    (effect tick outcome request reading s a = none ∧ view s'.shared = view s.shared ∧
        ∀ i, outcomeAt outcome s' i = outcomeAt outcome s i) ∨
      ∃ i r input answer, effect tick outcome request reading s a = some (i, r, input) ∧
        machine (view s.shared) (r, input) = (answer, view s'.shared) ∧
        outcomeAt outcome s i = none ∧ outcomeAt outcome s' i = some answer ∧
        s'.threads[i]?.map request = some r ∧
        ∀ j, j ≠ i → outcomeAt outcome s' j = outcomeAt outcome s j := by
  rcases step_cases h with ⟨r, rfl, rfl⟩ | ⟨i, input, t, g, t', rfl, hi, ht, rfl⟩
  · refine Or.inl ⟨rfl, rfl, fun i => ?_⟩
    unfold outcomeAt
    rcases Nat.lt_trichotomy i s.threads.length with hlt | rfl | hgt
    · rw [List.getElem?_append_left hlt]
    · simp [hstart]
    · rw [List.getElem?_eq_none (by rw [List.length_append, List.length_singleton]; omega),
        List.getElem?_eq_none (by omega)]
  · have hstep := hexplained i t input g t' rfl hi ht
    obtain ⟨hlt, -⟩ := List.getElem?_eq_some_iff.1 hi
    have hself : (s.threads.set i t')[i]? = some t' := List.getElem?_set_self hlt
    have hold : outcomeAt outcome s i = outcome t := by rw [outcomeAt, hi, Option.bind_some]
    have hnew :
        outcomeAt outcome { shared := g, threads := s.threads.set i t' } i = outcome t' := by
      rw [outcomeAt, hself, Option.bind_some]
    have hother : ∀ j, j ≠ i → outcomeAt outcome { shared := g, threads := s.threads.set i t' } j =
        outcomeAt outcome s j := by
      intro j hj
      rw [outcomeAt, outcomeAt, List.getElem?_set_ne (Ne.symm hj)]
    have heffect : effect tick outcome request reading s (.advance i input) =
        if (outcome t).isNone && (outcome t').isSome then
          some (i, request t, reading t input)
        else none := by
      rw [effect, hi]
      dsimp only
      rw [ht]
    by_cases hsame : outcome t' = outcome t
    · refine Or.inl ⟨?_, hstep.quiet hsame, fun j => ?_⟩
      · rw [heffect, hsame]
        cases outcome t <;> rfl
      · by_cases hj : j = i
        · rw [hj, hnew, hold, hsame]
        · exact hother j hj
    · obtain ⟨hnone, answer, hanswer, hmachine⟩ := hstep.settled hsame
      refine Or.inr ⟨i, request t, reading t input, answer, ?_, hmachine, hold.trans hnone,
        hnew.trans hanswer, ?_, hother⟩
      · rw [heffect, hnone, hanswer]
        rfl
      · rw [hself, Option.map_some, hstep.request_eq]

variable (machine view outcome reading) in
/-- A thread goes on serving its call. -/
theorem request_step {s s' : State G T} {a : Action R I} {i : ℕ} {r : R}
    (hexplained : ∀ i t input g t', a = .advance i input → s.threads[i]? = some t →
      tick s t input = some (g, t') → Explained machine view outcome request reading s t input g t')
    (h : step start tick s a = some s') (hr : s.threads[i]?.map request = some r) :
    s'.threads[i]?.map request = some r := by
  obtain ⟨t, hi, rfl⟩ := Option.map_eq_some_iff.1 hr
  obtain ⟨hlt, -⟩ := List.getElem?_eq_some_iff.1 hi
  rcases step_cases h with ⟨r, rfl, rfl⟩ | ⟨j, input, t₀, g, t', rfl, hj, ht, rfl⟩
  · dsimp only
    rw [List.getElem?_append_left hlt, hi, Option.map_some]
  · dsimp only
    by_cases hij : j = i
    · subst hij
      obtain rfl := Option.some.inj (hi.symm.trans hj)
      rw [List.getElem?_set_self hlt, Option.map_some,
        (hexplained j t input g t' rfl hi ht).request_eq]
    · rw [List.getElem?_set_ne hij, hi, Option.map_some]

section Runs

variable (hstart : ∀ r, outcome (start r) = none)
  (hP : ∀ s a s', P s → guard s a → step start tick s a = some s' → P s')
  (hexplained : ∀ s i t input g t', P s → guard s (.advance i input) → s.threads[i]? = some t →
    tick s t input = some (g, t') → Explained machine view outcome request reading s t input g t')

include hP hexplained

/-- A thread goes on serving its call along a run. -/
theorem request_run {s u : State G T} {as : List (Action R I)} {i : ℕ} {r : R} (hs : P s)
    (hguard : Runs.Guarded (step start tick) guard s as)
    (hrun : Runs.run (step start tick) s as = some u)
    (hr : s.threads[i]?.map request = some r) : u.threads[i]?.map request = some r := by
  refine (Runs.invariant_of_guarded (P := fun s => P s ∧ s.threads[i]?.map request = some r)
    (fun s a s' h hguard hstep => ⟨hP s a s' h.1 hguard hstep, ?_⟩) ⟨hs, hr⟩ hguard hrun).2
  refine request_step machine view outcome reading ?_ hstep h.2
  rintro i t input g t' rfl hi ht
  exact hexplained s i t input g t' h.1 hguard hi ht

include hstart

/-- An outcome stays along a run. -/
theorem outcomeAt_run {s u : State G T} {as : List (Action R I)} {i : ℕ} {answer : O} (hs : P s)
    (hguard : Runs.Guarded (step start tick) guard s as)
    (hrun : Runs.run (step start tick) s as = some u)
    (hanswer : outcomeAt outcome s i = some answer) : outcomeAt outcome u i = some answer := by
  refine (Runs.invariant_of_guarded (P := fun s => P s ∧ outcomeAt outcome s i = some answer)
    (fun s a s' h hguard hstep => ⟨hP s a s' h.1 hguard hstep, ?_⟩) ⟨hs, hanswer⟩ hguard hrun).2
  have hcases := outcomeAt_step machine view request reading hstart
    (fun i t input g t' ha hi ht => hexplained s i t input g t' h.1 (ha ▸ hguard) hi ht) hstep
  rcases hcases with ⟨-, -, hsame⟩ | ⟨j, r, input, answer', -, -, hnone, -, -, hother⟩
  · rw [hsame i, h.2]
  · have hij : i ≠ j := by
      rintro rfl
      rw [h.2] at hnone
      cases hnone
    rw [hother i hij, h.2]

/-- **If every step is explained, the run is.** -/
theorem linearized_of_explained {s u : State G T} {as : List (Action R I)} (hs : P s)
    (hguard : Runs.Guarded (step start tick) guard s as)
    (hrun : Runs.run (step start tick) s as = some u) :
    Linearized machine view outcome request s u
      (effects start tick outcome request reading s as) := by
  induction as generalizing s with
  | nil =>
      obtain rfl := Option.some.inj hrun
      refine ⟨rfl, List.Forall₂.nil, List.nodup_nil, fun i => ?_, fun e he => nomatch he⟩
      simp only [effects, List.map_nil, List.not_mem_nil, false_iff, not_and]
      intro hnone
      rw [hnone]
      exact Bool.false_ne_true
  | cons a as ih =>
      obtain ⟨s', hs', hrun⟩ := (Runs.run_cons_eq_some_iff _).1 hrun
      obtain ⟨hguard, hguard'⟩ := hguard
      have hrest := ih (hP s a s' hs hguard hs') (hguard' s' hs') hrun
      have hcases := outcomeAt_step machine view request reading hstart
        (fun i t input g t' ha hi ht => hexplained s i t input g t' hs (ha ▸ hguard) hi ht) hs'
      rw [effects_cons hs']
      rcases hcases with ⟨heffect, hview, hsame⟩ |
        ⟨i, r, input, answer, heffect, hmachine, hnone, hsettled, hr, hother⟩
      · rw [heffect, Option.toList_none, List.nil_append]
        refine ⟨?_, ?_, hrest.nodup, fun i => ?_, hrest.requests⟩
        · rw [hrest.final, hview]
        · rw [← hview]
          exact hrest.answers
        · rw [hrest.mem_iff i, hsame i]
      · rw [heffect, Option.toList_some, List.singleton_append]
        have hi : outcomeAt outcome u i = some answer :=
          outcomeAt_run hstart hP hexplained (hP s a s' hs hguard hs') (hguard' s' hs') hrun
            hsettled
        refine ⟨?_, ?_, ?_, fun j => ?_, fun e he => ?_⟩
        · rw [List.map_cons, Transcript.final_cons, hmachine]
          exact hrest.final
        · rw [List.map_cons, Transcript.transcript_cons, hmachine]
          exact List.Forall₂.cons hi hrest.answers
        · rw [List.map_cons, List.nodup_cons, hrest.mem_iff, hsettled]
          exact ⟨fun h => (nomatch h.1), hrest.nodup⟩
        · rw [List.map_cons, List.mem_cons, hrest.mem_iff]
          by_cases hj : j = i
          · rw [hj, hnone, hi]
            exact ⟨fun _ => ⟨rfl, rfl⟩, fun _ => Or.inl rfl⟩
          · rw [hother j hj]
            exact or_iff_right hj
        · rcases List.mem_cons.1 he with rfl | he
          · exact request_run hP hexplained (hP s a s' hs hguard hs') (hguard' s' hs') hrun hr
          · exact hrest.requests e he

end Runs

end Threads
