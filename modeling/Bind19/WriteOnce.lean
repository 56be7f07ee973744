/-
**A cell that is written once.**

Threads share a cell that holds nothing at first.  Whoever finds it empty claims it, makes a value
and stores it; whoever finds it claimed waits, and whoever finds a value takes that.  What a thread
would store depends on its own request and on what it reads of the world when it makes the value,
so two threads may well make different ones.  They agree all the same: one of them makes a value,
once, and all of them return it.

The proof follows the cell through four stages.  From the second on there is a leader, the thread
that has claimed the cell; all others are where they were when they were called, or have returned
what the leader has stored.

Main definitions:

* `WriteOnce.Phase`, `WriteOnce.Call`, `WriteOnce.Cell` — a call and the cell, with the values made
  for it as history;
* `WriteOnce.tick` — the next atomic step of a call;
* `WriteOnce.Stage` — the stages of the cell.

Main results:

* `WriteOnce.Stage.step` — what one action preserves;
* `WriteOnce.Stage.agree` — **all calls return what the leader has made**;
* `WriteOnce.stage_of_run`, `WriteOnce.input_of_run` — the cell is in a stage after every run, and
  what was read was read in the run;
* `WriteOnce.exists_completion` — **no call waits for ever**.
-/

import Bind19.Progress

set_option relaxedAutoImplicit false
set_option autoImplicit false

namespace WriteOnce

variable {R I V : Type*}

/-- How far a call has come. -/
inductive Phase (V : Type*)
  /-- It has not found the cell empty yet. -/
  | called
  /-- It has the cell to itself and has not made its value yet. -/
  | claimed
  /-- It has made its value. -/
  | made (v : V)
  /-- It has returned the value of the cell, which is its own or not. -/
  | returned (v : V) (own : Bool)

/-- A call, in progress or finished. -/
structure Call (R V : Type*) where
  request : R
  phase : Phase V

/-- The cell, and as history the requests that a value was made for, with what was read then. -/
structure Cell (R I V : Type*) where
  value : Option V
  isClaimed : Bool
  made : List (R × I)

/-- The cell and the calls on it. -/
abbrev State (R I V : Type*) := Threads.State (Cell R I V) (Call R V)

/-- A new call. -/
def Call.start (request : R) : Call R V := { request, phase := .called }

/-- The call with another phase. -/
def Call.goto (call : Call R V) (phase : Phase V) : Call R V := { call with phase }

/-- An empty cell, before any call. -/
def init : State R I V :=
  { shared := { value := none, isClaimed := false, made := [] }, threads := [] }

variable (make : R → I → V)

/-- The next atomic step of a call. -/
def tick (s : State R I V) (call : Call R V) (input : I) : Option (Cell R I V × Call R V) :=
  let cell := s.shared
  match call.phase with
  | .called =>
      match cell.value with
      | some v => some (cell, call.goto (.returned v false))
      | none =>
          if cell.isClaimed then none
          else some ({ cell with isClaimed := true }, call.goto .claimed)
  | .claimed =>
      some ({ cell with made := cell.made ++ [(call.request, input)] },
        call.goto (.made (make call.request input)))
  | .made v =>
      some ({ cell with value := some v, isClaimed := false }, call.goto (.returned v true))
  | .returned _ _ => none

/-- One action on the cell and its calls. -/
abbrev step : State R I V → Threads.Action R I → Option (State R I V) :=
  Threads.step Call.start (tick make)

/-! ### The stages of the cell -/

/-- The calls other than the one with number `i`. -/
def Others (s : State R I V) (i : ℕ) (p : Phase V → Prop) : Prop :=
  ∀ j call, j ≠ i → s.threads[j]? = some call → p call.phase

/-- The stages of the cell.  From the second on there is a leader `i`. -/
inductive Stage (s : State R I V) : Prop
  | empty (hcell : s.shared = { value := none, isClaimed := false, made := [] })
      (hcalls : ∀ call ∈ s.threads, call.phase = .called)
  | claimed (i : ℕ) (request : R)
      (hcell : s.shared = { value := none, isClaimed := true, made := [] })
      (hi : s.threads[i]? = some { request, phase := .claimed })
      (hothers : Others s i fun phase => phase = .called)
  | made (i : ℕ) (request : R) (input : I)
      (hcell : s.shared = { value := none, isClaimed := true, made := [(request, input)] })
      (hi : s.threads[i]? = some { request, phase := .made (make request input) })
      (hothers : Others s i fun phase => phase = .called)
  | stored (i : ℕ) (request : R) (input : I)
      (hcell : s.shared =
        { value := some (make request input), isClaimed := false, made := [(request, input)] })
      (hi : s.threads[i]? = some { request, phase := .returned (make request input) true })
      (hothers : Others s i fun phase =>
        phase = .called ∨ phase = .returned (make request input) false)

variable {make} {s s' : State R I V} {a : Threads.Action R I} {i : ℕ} {p : Phase V → Prop}

/-- The other calls after a new one. -/
theorem Others.spawn (h : Others s i p) (request : R) (hp : p .called) :
    Others { s with threads := s.threads ++ [Call.start request] } i p := by
  intro j call hj hcall
  rcases Threads.getElem?_append_singleton hcall with hcall | ⟨-, rfl⟩
  · exact h j call hj hcall
  · exact hp

/-- The other calls after a step of the leader. -/
theorem Others.lead (h : Others s i p) (cell : Cell R I V) (call : Call R V) :
    Others { shared := cell, threads := s.threads.set i call } i p := by
  intro j call' hj hcall
  rw [List.getElem?_set_ne (Ne.symm hj)] at hcall
  exact h j call' hj hcall

/-- The other calls after a step of one of them. -/
theorem Others.follow (h : Others s i p) {j : ℕ} (cell : Cell R I V) {call : Call R V}
    (hp : p call.phase) : Others { shared := cell, threads := s.threads.set j call } i p := by
  intro k call' hk hcall
  rcases eq_or_ne j k with rfl | hjk
  · obtain ⟨hlt, -⟩ := List.getElem?_eq_some_iff.1 hcall
    rw [List.length_set] at hlt
    rw [List.getElem?_set_self hlt] at hcall
    obtain rfl := Option.some.inj hcall
    exact hp
  · rw [List.getElem?_set_ne hjk] at hcall
    exact h k call' hk hcall

/-- Where the leader is after a new call. -/
theorem getElem?_spawn {call : Call R V} (hi : s.threads[i]? = some call) (request : R) :
    (s.threads ++ [Call.start request])[i]? = some call := by
  obtain ⟨hlt, -⟩ := List.getElem?_eq_some_iff.1 hi
  rw [List.getElem?_append_left hlt, hi]

/-- What a new call preserves. -/
theorem Stage.spawn (h : Stage make s) (request : R) :
    Stage make { s with threads := s.threads ++ [Call.start request] } := by
  cases h with
  | empty hcell hcalls =>
      refine .empty hcell fun call hcall => ?_
      rcases List.mem_append.1 hcall with hcall | hcall
      · exact hcalls call hcall
      · rw [List.mem_singleton.1 hcall]
        rfl
  | claimed i r hcell hi hothers =>
      exact .claimed i r hcell (getElem?_spawn hi request) (hothers.spawn request rfl)
  | made i r input hcell hi hothers =>
      exact .made i r input hcell (getElem?_spawn hi request) (hothers.spawn request rfl)
  | stored i r input hcell hi hothers =>
      exact .stored i r input hcell (getElem?_spawn hi request)
        (hothers.spawn request (Or.inl rfl))

/-- What the step of a call preserves. -/
theorem Stage.advance (h : Stage make s) {j : ℕ} {call call' : Call R V} {input : I}
    {cell : Cell R I V} (hj : s.threads[j]? = some call)
    (htick : tick make s call input = some (cell, call')) :
    Stage make { shared := cell, threads := s.threads.set j call' } := by
  obtain ⟨hlt, -⟩ := List.getElem?_eq_some_iff.1 hj
  have hself : (s.threads.set j call')[j]? = some call' := List.getElem?_set_self hlt
  obtain ⟨r, phase⟩ := call
  cases h with
  | empty hcell hcalls =>
      -- the call claims the cell
      have hphase : phase = .called := hcalls _ (List.mem_of_getElem? hj)
      subst hphase
      rw [tick, hcell] at htick
      obtain ⟨rfl, rfl⟩ := Prod.mk.inj (Option.some.inj htick)
      refine .claimed j r rfl hself fun k c hk hc => ?_
      rw [List.getElem?_set_ne (Ne.symm hk)] at hc
      exact hcalls c (List.mem_of_getElem? hc)
  | claimed i r₀ hcell hi hothers =>
      rcases eq_or_ne j i with rfl | hji
      · -- the leader makes its value
        cases hj.symm.trans hi
        rw [tick, hcell] at htick
        obtain ⟨rfl, rfl⟩ := Prod.mk.inj (Option.some.inj htick)
        exact .made j r input rfl hself (hothers.lead _ _)
      · -- all others wait
        have hphase : phase = .called := hothers j _ hji hj
        subst hphase
        rw [tick, hcell] at htick
        cases htick
  | made i r₀ input₀ hcell hi hothers =>
      rcases eq_or_ne j i with rfl | hji
      · -- the leader stores its value
        cases hj.symm.trans hi
        rw [tick, hcell] at htick
        obtain ⟨rfl, rfl⟩ := Prod.mk.inj (Option.some.inj htick)
        exact .stored j r input₀ rfl hself fun k c hk hc =>
          Or.inl (hothers.lead _ _ k c hk hc)
      · have hphase : phase = .called := hothers j _ hji hj
        subst hphase
        rw [tick, hcell] at htick
        cases htick
  | stored i r₀ input₀ hcell hi hothers =>
      rcases eq_or_ne j i with rfl | hji
      · cases hj.symm.trans hi
        rw [tick] at htick
        cases htick
      · rcases hothers j _ hji hj with hphase | hphase
        · -- the call takes the value that is there
          have hcalled : phase = .called := hphase
          subst hcalled
          rw [tick, hcell] at htick
          obtain ⟨rfl, rfl⟩ := Prod.mk.inj (Option.some.inj htick)
          refine .stored i r₀ input₀ rfl ?_ (hothers.follow _ (Or.inr rfl))
          dsimp only
          rw [List.getElem?_set_ne hji, hi]
        · have hreturned : phase = .returned (make r₀ input₀) false := hphase
          subst hreturned
          rw [tick] at htick
          cases htick

/-- **What one action preserves.** -/
theorem Stage.step (h : Stage make s) (hstep : WriteOnce.step make s a = some s') :
    Stage make s' := by
  rcases Threads.step_cases hstep with
    ⟨request, rfl, rfl⟩ | ⟨j, input, call, cell, call', rfl, hj, htick, rfl⟩
  · exact h.spawn request
  · exact h.advance hj htick

/-- After every run the cell is in one of its stages. -/
theorem stage_of_run {actions : List (Threads.Action R I)}
    (hrun : Runs.run (WriteOnce.step make) init actions = some s) : Stage make s :=
  Runs.invariant (fun _ _ _ h hstep => Stage.step h hstep)
    (.empty rfl fun _ hcall => nomatch (hcall : _ ∈ [])) hrun

/-- **All calls return what the leader has made.**  If some call has returned, there is a leader,
and it is the only call that has returned a value of its own. -/
theorem Stage.agree (h : Stage make s) {j : ℕ} {r : R} {v : V} {own : Bool}
    (hj : s.threads[j]? = some { request := r, phase := .returned v own }) :
    ∃ (i : ℕ) (request : R) (input : I), s.shared.made = [(request, input)] ∧
      s.threads[i]? = some { request, phase := .returned (make request input) true } ∧
      ∀ (k : ℕ) (r : R) (v : V) (own : Bool),
        s.threads[k]? = some { request := r, phase := .returned v own } →
          v = make request input ∧ (own = true ↔ k = i) := by
  have hother {i : ℕ} {leader : Call R V} (hi : s.threads[i]? = some leader)
      (hothers : Others s i fun phase => phase = .called)
      (hphase : leader.phase ≠ .returned v own) : False := by
    rcases eq_or_ne j i with rfl | hji
    · cases hi.symm.trans hj
      exact hphase rfl
    · cases hothers j _ hji hj
  cases h with
  | empty hcell hcalls => cases hcalls _ (List.mem_of_getElem? hj)
  | claimed i r₀ hcell hi hothers => exact (hother hi hothers (by simp)).elim
  | made i r₀ input hcell hi hothers => exact (hother hi hothers (by simp)).elim
  | stored i r₀ input hcell hi hothers =>
      refine ⟨i, r₀, input, by rw [hcell], hi, fun k r v own hk => ?_⟩
      rcases eq_or_ne k i with rfl | hki
      · cases hi.symm.trans hk
        exact ⟨rfl, by simp⟩
      · rcases hothers k _ hki hk with hphase | hphase
        · cases hphase
        · cases hphase
          exact ⟨rfl, by simpa using hki⟩

/-! ### What was read -/

/-- A value is made for the request of a call, from what it reads in that step. -/
theorem made_of_step (hstep : WriteOnce.step make s a = some s') {e : R × I}
    (he : e ∈ s'.shared.made) :
    e ∈ s.shared.made ∨ ∃ i, a = .advance i e.2 := by
  rcases Threads.step_cases hstep with
    ⟨request, rfl, rfl⟩ | ⟨j, input, call, cell, call', rfl, hj, htick, rfl⟩
  · exact Or.inl he
  · rw [tick] at htick
    cases hphase : call.phase with
    | called =>
        rw [hphase] at htick
        dsimp only at htick
        split at htick
        · obtain ⟨rfl, -⟩ := Prod.mk.inj (Option.some.inj htick)
          exact Or.inl he
        · split at htick
          · cases htick
          · obtain ⟨rfl, -⟩ := Prod.mk.inj (Option.some.inj htick)
            exact Or.inl he
    | claimed =>
        rw [hphase] at htick
        obtain ⟨rfl, -⟩ := Prod.mk.inj (Option.some.inj htick)
        rcases List.mem_append.1 he with he | he
        · exact Or.inl he
        · obtain rfl := List.mem_singleton.1 he
          exact Or.inr ⟨j, rfl⟩
    | made v =>
        rw [hphase] at htick
        obtain ⟨rfl, -⟩ := Prod.mk.inj (Option.some.inj htick)
        exact Or.inl he
    | returned v own =>
        rw [hphase] at htick
        cases htick

/-- What a value was made from was read in the run. -/
theorem input_of_run {actions : List (Threads.Action R I)}
    (hrun : Runs.run (WriteOnce.step make) s actions = some s') {e : R × I}
    (he : e ∈ s'.shared.made) :
    e ∈ s.shared.made ∨ ∃ i, .advance i e.2 ∈ actions := by
  induction actions generalizing s with
  | nil =>
      obtain rfl := Option.some.inj hrun
      exact Or.inl he
  | cons a actions ih =>
      obtain ⟨s₁, hstep, hrun⟩ := (Runs.run_cons_eq_some_iff _).1 hrun
      rcases ih hrun with he | ⟨i, hi⟩
      · rcases made_of_step hstep he with he | ⟨i, rfl⟩
        · exact Or.inl he
        · exact Or.inr ⟨i, List.mem_cons_self⟩
      · exact Or.inr ⟨i, List.mem_cons_of_mem a hi⟩

/-! ### No call waits for ever -/

/-- The most steps that a call has left. -/
def Call.stepsLeft (call : Call R V) : ℕ :=
  match call.phase with
  | .called => 3
  | .claimed => 2
  | .made _ => 1
  | .returned _ _ => 0

/-- Every step makes the number smaller. -/
theorem stepsLeft_lt_of_tick {call call' : Call R V} {input : I} {cell : Cell R I V}
    (htick : tick make s call input = some (cell, call')) : call'.stepsLeft < call.stepsLeft := by
  rw [tick] at htick
  unfold Call.stepsLeft
  cases hphase : call.phase with
  | called =>
      rw [hphase] at htick
      dsimp only at htick
      split at htick
      · obtain ⟨-, rfl⟩ := Prod.mk.inj (Option.some.inj htick)
        exact Nat.zero_lt_succ 2
      · split at htick
        · cases htick
        · obtain ⟨-, rfl⟩ := Prod.mk.inj (Option.some.inj htick)
          exact Nat.lt_succ_self 2
  | claimed =>
      rw [hphase] at htick
      obtain ⟨-, rfl⟩ := Prod.mk.inj (Option.some.inj htick)
      exact Nat.lt_succ_self 1
  | made v =>
      rw [hphase] at htick
      obtain ⟨-, rfl⟩ := Prod.mk.inj (Option.some.inj htick)
      exact Nat.zero_lt_one
  | returned v own =>
      rw [hphase] at htick
      cases htick

/-- As long as some call has steps left, some call can take its step. -/
theorem Stage.exists_step (h : Stage make s) (hcall : ∃ call ∈ s.threads, call.stepsLeft ≠ 0)
    (input : I) : ∃ i, (WriteOnce.step make s (.advance i input)).isSome = true := by
  have hadvance {i : ℕ} {call : Call R V} (hi : s.threads[i]? = some call)
      (htick : (tick make s call input).isSome = true) :
      ∃ i, (WriteOnce.step make s (.advance i input)).isSome = true := by
    obtain ⟨_, htick⟩ := Option.isSome_iff_exists.1 htick
    exact ⟨i, Option.isSome_iff_exists.2 ⟨_, Threads.step_of_tick hi htick⟩⟩
  obtain ⟨call, hmem, hleft⟩ := hcall
  obtain ⟨j, hj⟩ := List.mem_iff_getElem?.1 hmem
  obtain ⟨r, phase⟩ := call
  cases h with
  | empty hcell hcalls =>
      have hphase : phase = .called := hcalls _ hmem
      subst hphase
      refine hadvance hj ?_
      rw [tick, hcell]
      rfl
  | claimed i r₀ hcell hi hothers => exact hadvance hi rfl
  | made i r₀ input₀ hcell hi hothers => exact hadvance hi rfl
  | stored i r₀ input₀ hcell hi hothers =>
      rcases eq_or_ne j i with rfl | hji
      · cases hj.symm.trans hi
        exact absurd rfl hleft
      · rcases hothers j _ hji hj with hphase | hphase
        · have hcalled : phase = .called := hphase
          subst hcalled
          refine hadvance hj ?_
          rw [tick, hcell]
          rfl
        · have hreturned : phase = .returned (make r₀ input₀) false := hphase
          subst hreturned
          exact absurd rfl hleft

/-- **No call waits for ever.** -/
theorem exists_completion (h : Stage make s) (input : I) :
    ∃ order : List ℕ, order.length ≤ Threads.remaining Call.stepsLeft s ∧
      ∃ u, Runs.run (WriteOnce.step make) s (order.map fun i => .advance i input) = some u ∧
        ∀ call ∈ u.threads, call.stepsLeft = 0 :=
  Threads.exists_completion input (fun _ _ _ _ _ htick => stepsLeft_lt_of_tick htick)
    (fun _ _ _ h hstep => Stage.step h hstep) (fun _ h hcall => h.exists_step hcall input) h

end WriteOnce
