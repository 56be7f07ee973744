/-
**Calls and their answers.**

A machine that is called again and again gives every call an answer, and the answer depends on the
calls before it.  The transcript of a list of calls has, for each of them, the state that it met and
the answer that it got.

Several clients of one machine do not disturb each other if the answers to the calls of one client
are those that it would get alone.  The rule for proving that compares two runs, the whole run and
the one with the calls of the client only, by a relation between their states: a call of the client
keeps the two states related and is answered alike, and any other call is a step of the first run
that the relation does not see.

Main definitions:

* `Exchange`, `Transcript.transcript` — the calls with their states and answers;
* `Transcript.final` — the state afterwards.

Main results:

* `Transcript.transcript_append` — the transcript of two lists of calls after each other;
* `Transcript.final_filter`, `Transcript.transcript_filter` — calls that change nothing can be left
  out;
* `Transcript.forall₂_of_unwinding` — **the answers to the calls of one client** are, up to a
  relation, those that it would get alone;
* `Transcript.answers_of_simulation` — **two machines in step** give the same answers;
* `Transcript.answers_comp`, `Transcript.answers_map` — calls in another form, and calls that a
  machine cannot tell apart.
-/

import Mathlib.Data.List.Forall2

set_option relaxedAutoImplicit false
set_option autoImplicit false

/-- A call, the state that it met, and the answer that it got. -/
structure Exchange (S A R : Type*) where
  before : S
  call : A
  answer : R

namespace Transcript

variable {S A R : Type*} (step : S → A → R × S)

/-- The state after a list of calls. -/
def final (s : S) (calls : List A) : S := calls.foldl (fun s a => (step s a).2) s

/-- The exchanges of a list of calls. -/
def transcript (s : S) : List A → List (Exchange S A R)
  | [] => []
  | a :: calls =>
      { before := s, call := a, answer := (step s a).1 } :: transcript (step s a).2 calls

theorem final_cons (s : S) (a : A) (calls : List A) :
    final step s (a :: calls) = final step (step s a).2 calls := rfl

theorem final_concat (s : S) (calls : List A) (a : A) :
    final step s (calls ++ [a]) = (step (final step s calls) a).2 := by
  rw [final, List.foldl_append]
  rfl

@[simp] theorem transcript_nil (s : S) : transcript step s [] = [] := rfl

theorem transcript_cons (s : S) (a : A) (calls : List A) :
    transcript step s (a :: calls) =
      { before := s, call := a, answer := (step s a).1 } ::
        transcript step (step s a).2 calls := rfl

/-- The transcript of two lists of calls after each other. -/
theorem transcript_append (s : S) (calls calls' : List A) :
    transcript step s (calls ++ calls') =
      transcript step s calls ++ transcript step (final step s calls) calls' := by
  induction calls generalizing s with
  | nil => rfl
  | cons a calls ih =>
      rw [List.cons_append, transcript_cons, transcript_cons, ih, final_cons, List.cons_append]

theorem transcript_concat (s : S) (calls : List A) (a : A) :
    transcript step s (calls ++ [a]) = transcript step s calls ++
      [{ before := final step s calls, call := a, answer := (step (final step s calls) a).1 }] :=
  transcript_append step s calls [a]

theorem map_call_transcript (s : S) (calls : List A) :
    (transcript step s calls).map Exchange.call = calls := by
  induction calls generalizing s with
  | nil => rfl
  | cons a calls ih => rw [transcript_cons, List.map_cons, ih]

variable {step} in
theorem call_mem_of_mem_transcript {s : S} {calls : List A} {e : Exchange S A R}
    (he : e ∈ transcript step s calls) : e.call ∈ calls :=
  map_call_transcript step s calls ▸ List.mem_map_of_mem he

variable {step}

/-- Calls that change nothing can be left out. -/
theorem final_filter {p : A → Bool} (hquiet : ∀ s a, p a = false → (step s a).2 = s) (s : S)
    (calls : List A) : final step s (calls.filter p) = final step s calls := by
  induction calls generalizing s with
  | nil => rfl
  | cons a calls ih =>
      cases hp : p a with
      | true => simp only [List.filter_cons, final_cons, hp, if_true, ih]
      | false =>
          simp only [List.filter_cons, final_cons, hp, hquiet s a hp, Bool.false_eq_true, if_false,
            ih]

/-- The other calls meet the same states and get the same answers without them. -/
theorem transcript_filter {p : A → Bool} (hquiet : ∀ s a, p a = false → (step s a).2 = s) (s : S)
    (calls : List A) :
    ((transcript step s calls).filter fun e => p e.call) = transcript step s (calls.filter p) := by
  induction calls generalizing s with
  | nil => rfl
  | cons a calls ih =>
      cases hp : p a with
      | true => simp only [List.filter_cons, transcript_cons, hp, if_true, ih]
      | false =>
          simp only [List.filter_cons, transcript_cons, hp, hquiet s a hp, Bool.false_eq_true,
            if_false, ih]

/-- **The answers to the calls of one client.** -/
theorem forall₂_of_unwinding {p : A → Bool} {r : S → S → Prop}
    {Q : Exchange S A R → Exchange S A R → Prop} {s t : S} {calls : List A}
    (hinside : ∀ s t, ∀ a ∈ calls, p a = true → r s t →
      Q { before := s, call := a, answer := (step s a).1 }
          { before := t, call := a, answer := (step t a).1 } ∧
        r (step s a).2 (step t a).2)
    (houtside : ∀ s t, ∀ a ∈ calls, p a = false → r s t → r (step s a).2 t)
    (hrel : r s t) :
    List.Forall₂ Q ((transcript step s calls).filter fun e => p e.call)
      (transcript step t (calls.filter p)) := by
  induction calls generalizing s t with
  | nil => exact List.Forall₂.nil
  | cons a calls ih =>
      have htail := fun s' t' (hrel' : r s' t') =>
        ih (s := s') (t := t') (fun s t b hb => hinside s t b (List.mem_cons_of_mem a hb))
          (fun s t b hb => houtside s t b (List.mem_cons_of_mem a hb)) hrel'
      cases hp : p a with
      | true =>
          obtain ⟨hQ, hrel'⟩ := hinside s t a List.mem_cons_self hp hrel
          simp only [List.filter_cons, transcript_cons, hp, if_true]
          exact List.Forall₂.cons hQ (htail _ _ hrel')
      | false =>
          simp only [List.filter_cons, transcript_cons, hp, Bool.false_eq_true, if_false]
          exact htail _ _ (houtside s t a List.mem_cons_self hp hrel)

/-! ### Two machines in step -/

/-- Two machines that answer alike in related states, and stay related, give the same answers. -/
theorem answers_of_simulation {S' : Type*} {step' : S' → A → R × S'} {r : S → S' → Prop}
    (hstep : ∀ s t a, r s t → (step s a).1 = (step' t a).1 ∧ r (step s a).2 (step' t a).2)
    {s : S} {t : S'} (hrel : r s t) (calls : List A) :
    (transcript step s calls).map Exchange.answer =
        (transcript step' t calls).map Exchange.answer ∧
      r (final step s calls) (final step' t calls) := by
  induction calls generalizing s t with
  | nil => exact ⟨rfl, hrel⟩
  | cons a calls ih =>
      obtain ⟨hanswer, hrel'⟩ := hstep s t a hrel
      obtain ⟨hanswers, hfinal⟩ := ih hrel'
      rw [transcript_cons, transcript_cons, List.map_cons, List.map_cons, hanswer, hanswers]
      exact ⟨rfl, hfinal⟩

variable (step) in
/-- A machine that reads its calls in another form. -/
theorem answers_comp {B : Type*} (g : B → A) (s : S) (calls : List B) :
    final (fun s b => step s (g b)) s calls = final step s (calls.map g) ∧
      (transcript (fun s b => step s (g b)) s calls).map Exchange.answer =
        (transcript step s (calls.map g)).map Exchange.answer := by
  induction calls generalizing s with
  | nil => exact ⟨rfl, rfl⟩
  | cons b calls ih =>
      obtain ⟨hfinal, hanswers⟩ := ih (step s (g b)).2
      rw [List.map_cons, final_cons, final_cons, transcript_cons, transcript_cons, List.map_cons,
        List.map_cons, hanswers]
      exact ⟨hfinal, rfl⟩

/-- Calls that a machine cannot tell apart have the same answers. -/
theorem answers_map {g : A → A} (hg : ∀ s a, step s (g a) = step s a) (s : S) (calls : List A) :
    final step s (calls.map g) = final step s calls ∧
      (transcript step s (calls.map g)).map Exchange.answer =
        (transcript step s calls).map Exchange.answer := by
  have hsame : (fun s a => step s (g a)) = step := funext fun s => funext fun a => hg s a
  obtain ⟨hfinal, hanswers⟩ := answers_comp step g s calls
  rw [hsame] at hfinal hanswers
  exact ⟨hfinal.symm, hanswers.symm⟩

end Transcript
