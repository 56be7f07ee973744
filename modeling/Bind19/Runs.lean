/-
**Runs of a system.**

A system is a partial function: given a state and an action, the next state, or nothing when the
action is not possible there.  A run is a list of actions, each possible in the state the ones
before it lead to.  This module has the rules by which a property is carried along a run: from step
to step, and, when the step needs a condition that not every run satisfies, along the runs whose
steps all satisfy it.

Main definitions:

* `Runs.run` — the state a list of actions leads to;
* `Runs.Guarded` — every step of the run satisfies a condition;
* `Runs.tally` — what the steps of the run weigh together;
* `Runs.checkpoints` — the states after each part of a run.

Main results:

* `Runs.invariant` — what every step preserves holds at the end of a run;
* `Runs.invariant_of_guarded` — what the guarded steps preserve holds at the end of a guarded run;
* `Runs.exists_run` — where the invariant makes every step possible, every list of actions has a
  run;
* `Runs.iff_guarded` — what exactly the guarded steps preserve holds at the end of exactly the
  guarded runs;
* `Runs.balance` — what every step gains and loses adds up along a run;
* `Runs.run_map` — a system that another one is the image of, step by step, has the images of its
  runs;
* `Runs.invariant_checkpoints`, `Runs.pairwise_checkpoints` — what holds of the states after the
  parts of a run.
-/

import Mathlib.Data.Nat.Notation
import Mathlib.Data.Option.Basic

set_option relaxedAutoImplicit false
set_option autoImplicit false

namespace Runs

variable {S A : Type*} (step : S → A → Option S) (guard : S → A → Prop)

/-- The state a list of actions leads to, if each of them is possible. -/
def run (s : S) : List A → Option S
  | [] => some s
  | a :: as =>
      match step s a with
      | none => none
      | some s' => run s' as

/-- Every step of the run satisfies the condition in the state in which it is taken. -/
def Guarded (s : S) : List A → Prop
  | [] => True
  | a :: as => guard s a ∧ ∀ s', step s a = some s' → Guarded s' as

@[simp] theorem run_nil (s : S) : run step s [] = some s := rfl

theorem run_cons_eq_some_iff {s t : S} {a : A} {as : List A} :
    run step s (a :: as) = some t ↔ ∃ s', step s a = some s' ∧ run step s' as = some t := by
  rw [run]
  cases step s a <;> simp

theorem run_append_eq_some_iff {s t : S} {as bs : List A} :
    run step s (as ++ bs) = some t ↔ ∃ u, run step s as = some u ∧ run step u bs = some t := by
  induction as generalizing s with
  | nil => simp
  | cons a as ih =>
      simp only [List.cons_append, run_cons_eq_some_iff, ih]
      constructor
      · rintro ⟨s', hs', u, hu, ht⟩
        exact ⟨u, ⟨s', hs', hu⟩, ht⟩
      · rintro ⟨u, ⟨s', hs', hu⟩, ht⟩
        exact ⟨s', hs', u, hu, ht⟩

instance decidableGuarded [∀ s a, Decidable (guard s a)] (s : S) (as : List A) :
    Decidable (Guarded step guard s as) :=
  match as with
  | [] => isTrue trivial
  | a :: as =>
      match h : step s a with
      | none => decidable_of_iff (guard s a) (by simp [Guarded, h])
      | some s' =>
          have := decidableGuarded s' as
          decidable_of_iff (guard s a ∧ Guarded step guard s' as) (by simp [Guarded, h])

theorem guarded_append {s : S} {as bs : List A} :
    Guarded step guard s (as ++ bs) ↔
      Guarded step guard s as ∧ ∀ s', run step s as = some s' → Guarded step guard s' bs := by
  induction as generalizing s with
  | nil => simp [Guarded]
  | cons a as ih =>
      rw [List.cons_append, Guarded, Guarded, and_assoc]
      refine and_congr_right fun _ => ?_
      simp only [ih, run_cons_eq_some_iff]
      constructor
      · intro h
        exact ⟨fun s' hs' => (h s' hs').1, fun t ⟨s', hs', ht⟩ => (h s' hs').2 t ht⟩
      · rintro ⟨h₁, h₂⟩ s' hs'
        exact ⟨h₁ s' hs', fun t ht => h₂ t ⟨s', hs', ht⟩⟩

variable {step guard}

/-- What the guarded steps preserve holds at the end of a guarded run. -/
theorem invariant_of_guarded {P : S → Prop}
    (hstep : ∀ s a s', P s → guard s a → step s a = some s' → P s') {s t : S} {as : List A}
    (hs : P s) (hguard : Guarded step guard s as) (hrun : run step s as = some t) : P t := by
  induction as generalizing s with
  | nil =>
      obtain rfl := Option.some.inj hrun
      exact hs
  | cons a as ih =>
      obtain ⟨s', hs', hrun⟩ := (run_cons_eq_some_iff step).1 hrun
      exact ih (hstep s a s' hs hguard.1 hs') (hguard.2 s' hs') hrun

/-- A condition that always holds does not restrict a run. -/
theorem guarded_of_forall (h : ∀ s a, guard s a) (s : S) (as : List A) :
    Guarded step guard s as := by
  induction as generalizing s with
  | nil => trivial
  | cons a as ih => exact ⟨h s a, fun s' _ => ih s'⟩

/-- A condition that all actions of a list satisfy does not restrict its run. -/
theorem guarded_of_forall_mem {P : A → Prop} {as : List A} (h : ∀ a ∈ as, P a) (s : S) :
    Guarded step (fun _ a => P a) s as := by
  induction as generalizing s with
  | nil => trivial
  | cons a as ih =>
      obtain ⟨ha, has⟩ := List.forall_mem_cons.1 h
      exact ⟨ha, fun s' _ => ih has s'⟩

theorem Guarded.and {guard' : S → A → Prop} {s : S} {as : List A} (h : Guarded step guard s as)
    (h' : Guarded step guard' s as) :
    Guarded step (fun s a => guard s a ∧ guard' s a) s as := by
  induction as generalizing s with
  | nil => trivial
  | cons a as ih =>
      exact ⟨⟨h.1, h'.1⟩, fun s' hs' => ih (h.2 s' hs') (h'.2 s' hs')⟩

/-- What every step preserves holds at the end of a run. -/
theorem invariant {P : S → Prop} (hstep : ∀ s a s', P s → step s a = some s' → P s') {s t : S}
    {as : List A} (hs : P s) (hrun : run step s as = some t) : P t := by
  have hguard : Guarded step (fun _ _ => True) s as := guarded_of_forall (fun _ _ => trivial) s as
  exact invariant_of_guarded (fun s a s' h _ => hstep s a s' h) hs hguard hrun

/-- Where the invariant makes every step possible, every list of actions has a run. -/
theorem exists_run {P : S → Prop} (hstep : ∀ s a s', P s → step s a = some s' → P s')
    (htotal : ∀ s a, P s → (step s a).isSome) {s : S} (hs : P s) (as : List A) :
    ∃ t, run step s as = some t := by
  induction as generalizing s with
  | nil => exact ⟨s, rfl⟩
  | cons a as ih =>
      obtain ⟨s', hs'⟩ := Option.isSome_iff_exists.1 (htotal s a hs)
      obtain ⟨t, ht⟩ := ih (hstep s a s' hs hs')
      exact ⟨t, (run_cons_eq_some_iff step).2 ⟨s', hs', ht⟩⟩

/-- If a step keeps a property exactly when it satisfies the condition, and never restores it, then
at the end of a run the property holds exactly when it held at the beginning and every step
satisfied the condition. -/
theorem iff_guarded {I P : S → Prop} (hI : ∀ s a s', I s → step s a = some s' → I s')
    (hP : ∀ s a s', I s → step s a = some s' → (P s' ↔ P s ∧ guard s a)) {s t : S} {as : List A}
    (hs : I s) (hrun : run step s as = some t) : P t ↔ P s ∧ Guarded step guard s as := by
  induction as generalizing s with
  | nil =>
      obtain rfl := Option.some.inj hrun
      simp [Guarded]
  | cons a as ih =>
      obtain ⟨s', hs', hrun⟩ := (run_cons_eq_some_iff step).1 hrun
      rw [ih (hI s a s' hs hs') hrun, hP s a s' hs hs', Guarded, and_assoc]
      refine and_congr_right fun _ => and_congr_right fun _ =>
        ⟨fun h s'' hs'' => ?_, fun h => h s' hs'⟩
      obtain rfl := Option.some.inj (hs'.symm.trans hs'')
      exact h

/-! ### Images of runs -/

/-- Where the steps of one system are the images of the steps of another, for the actions that the
invariant allows, so are the runs. -/
theorem run_map {T : Type*} {step' : T → A → Option T} {f : S → T} {P : S → Prop}
    {allowed : A → Prop} (hP : ∀ s a s', P s → allowed a → step s a = some s' → P s')
    (hstep : ∀ s a, P s → allowed a → step' (f s) a = (step s a).map f) {s : S} (hs : P s)
    {as : List A} (hallowed : ∀ a ∈ as, allowed a) :
    run step' (f s) as = (run step s as).map f := by
  induction as generalizing s with
  | nil => rfl
  | cons a as ih =>
      have ha := hallowed a List.mem_cons_self
      rw [run, run, hstep s a hs ha]
      cases hs' : step s a with
      | none => rfl
      | some s' =>
          exact ih (hP s a s' hs ha hs') fun b hb => hallowed b (List.mem_cons_of_mem a hb)

/-! ### Looking at a run from time to time -/

/-- The states after each part of a run that is cut into parts. -/
def checkpoints (step : S → A → Option S) (s : S) : List (List A) → Option (List S)
  | [] => some []
  | as :: parts =>
      match run step s as with
      | none => none
      | some s' => (checkpoints step s' parts).map fun states => s' :: states

theorem checkpoints_cons_eq_some_iff {s : S} {as : List A} {parts : List (List A)}
    {states : List S} :
    checkpoints step s (as :: parts) = some states ↔
      ∃ s' states', run step s as = some s' ∧ checkpoints step s' parts = some states' ∧
        states = s' :: states' := by
  rw [checkpoints]
  cases run step s as with
  | none => simp
  | some s' => simp [eq_comm]

/-- What every step preserves holds at every checkpoint. -/
theorem invariant_checkpoints {P : S → Prop} (hstep : ∀ s a s', P s → step s a = some s' → P s')
    {s : S} {parts : List (List A)} {states : List S} (hs : P s)
    (h : checkpoints step s parts = some states) : ∀ t ∈ states, P t := by
  induction parts generalizing s states with
  | nil =>
      obtain rfl := Option.some.inj h
      exact fun t ht => nomatch ht
  | cons as parts ih =>
      obtain ⟨s', states', hrun, hrest, rfl⟩ := checkpoints_cons_eq_some_iff.1 h
      have hs' := invariant hstep hs hrun
      intro t ht
      rcases List.mem_cons.1 ht with rfl | ht
      · exact hs'
      · exact ih hs' hrest t ht

/-- If every step goes up in an order, so do the checkpoints. -/
theorem pairwise_checkpoints {R : S → S → Prop} (hrefl : ∀ s, R s s)
    (htrans : ∀ s t u, R s t → R t u → R s u) (hstep : ∀ s a s', step s a = some s' → R s s')
    {s : S} {parts : List (List A)} {states : List S}
    (h : checkpoints step s parts = some states) : (s :: states).Pairwise R := by
  induction parts generalizing s states with
  | nil =>
      obtain rfl := Option.some.inj h
      exact List.pairwise_singleton R s
  | cons as parts ih =>
      obtain ⟨s', states', hrun, hrest, rfl⟩ := checkpoints_cons_eq_some_iff.1 h
      have hup : R s s' :=
        invariant (fun t a t' ht hstep' => htrans s t t' ht (hstep t a t' hstep')) (hrefl s) hrun
      have hrest := ih hrest
      refine List.pairwise_cons.2 ⟨fun t ht => ?_, hrest⟩
      rcases List.mem_cons.1 ht with rfl | ht
      · exact hup
      · exact htrans s s' t hup (List.rel_of_pairwise_cons hrest ht)

/-! ### Adding up along a run -/

variable (step) (weight : S → A → ℕ)

/-- What the steps of the run weigh together, each in the state in which it is taken. -/
def tally (s : S) : List A → ℕ
  | [] => 0
  | a :: as =>
      match step s a with
      | none => 0
      | some s' => weight s a + tally s' as

@[simp] theorem tally_nil (s : S) : tally step weight s [] = 0 := rfl

variable {step}

theorem tally_cons {s s' : S} {a : A} (h : step s a = some s') (as : List A) :
    tally step weight s (a :: as) = weight s a + tally step weight s' as := by
  rw [tally, h]

variable {weight}

/-- If a quantity changes at every step by what the step gains and loses, it changes along a run by
what the steps gain and lose together. -/
theorem balance {q : S → ℕ} {gain loss : S → A → ℕ}
    (hstep : ∀ s a s', step s a = some s' → q s' + loss s a = q s + gain s a)
    {s t : S} {as : List A} (hrun : run step s as = some t) :
    q t + tally step loss s as = q s + tally step gain s as := by
  induction as generalizing s with
  | nil =>
      obtain rfl := Option.some.inj hrun
      rfl
  | cons a as ih =>
      obtain ⟨s', hs', hrun⟩ := (run_cons_eq_some_iff step).1 hrun
      have hone := hstep s a s' hs'
      have hrest := ih hrun
      rw [tally_cons loss hs', tally_cons gain hs']
      omega

end Runs
