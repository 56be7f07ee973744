/-
**One configuration for the whole process.**

The configuration says whether rule 6 is in force.  It is kept in a cell for the whole process: it
is read from the environment by whoever asks for it first, unless it was set by hand before.  Any
number of threads ask for it, or for the risk level of a frame, which depends on it, and the
environment may change at any time.

This module shows that the configuration is decided once all the same.  All answers, to whichever
thread and in whichever order, are those of one configuration, so that rule 6 is in force for all
frames or for none.  At most one attempt to set it by hand succeeds, and then it is the one set;
otherwise it is what the environment said at one moment.  Debug mode is never entered in silence by
way of the environment: the banner is printed, and it is printed once.

Main definitions:

* `Bind19.BindConfig.fromEnv` — the configuration that the environment asks for, with what is
  printed meanwhile;
* `Bind19.ConfigCall`, `Bind19.ConfigState` — calls that need the global configuration;
* `Bind19.ConfigState.Answers` — the answers are those of one configuration.

Main results:

* `Bind19.BindConfig.debugMode_fromEnv_iff` — which values ask for debug mode;
* `Bind19.ConfigState.Answers.rule6` — rule 6 is in force for all frames or for none;
* `Bind19.ConfigState.run_global` — **the configuration is decided once**.
-/

import Bind19.Frame
import Bind19.WriteOnce

set_option relaxedAutoImplicit false
set_option autoImplicit false

namespace Bind19

/-! ### The configuration -/

/-- The environment variable that asks for debug mode. -/
def debugEnvVar : String := "CI144_DEBUG"

/-- What the environment has for the variable: nothing if it is not set or is not Unicode. -/
abbrev EnvVar := Option String

namespace BindConfig

/-- Production mode. -/
instance : Inhabited BindConfig := ⟨{ debugMode := false }⟩

/-- Whether a value of the variable asks for debug mode.  No letter outside ASCII becomes one of
these when it is put in lower case, so that lower case matters for ASCII only. -/
def asksForDebug (v : String) : Bool :=
  match v.toLower with
  | "1" | "true" | "yes" | "on" => true
  | _ => false

/-- The banner that is printed in debug mode. -/
def debugBanner : List String :=
  ["⚠️  [BIND-19] 调试模式已启用（" ++ debugEnvVar ++ "=1）",
    "    规则 6（Replay-Enable=0 强制降级）将被跳过",
    "    规则 1-3（CATASTROPHIC 硬覆盖）仍然严格生效",
    "    此模式仅用于开发/调试，禁止在生产环境使用"]

/-- The configuration that the environment asks for, and what is printed. -/
def fromEnv (env : EnvVar) : BindConfig × List String :=
  let debugMode := (env.map asksForDebug).getD false
  ({ debugMode }, if debugMode then debugBanner else [])

/-- Whether this is debug mode. -/
def isDebug (c : BindConfig) : Bool := c.debugMode

/-- Whether rules 1 to 3 are in force: always. -/
def catastrophicRulesEnabled (_c : BindConfig) : Bool := true

/-- The values that ask for debug mode, up to their case. -/
theorem debugMode_fromEnv_iff {env : EnvVar} :
    (fromEnv env).1.debugMode = true ↔
      ∃ v, env = some v ∧ v.toLower ∈ ["1", "true", "yes", "on"] := by
  have hvalue (v : String) :
      asksForDebug v = true ↔ v.toLower ∈ ["1", "true", "yes", "on"] := by
    rw [asksForDebug]
    split
    · rename_i h
      simp [h]
    · rename_i h
      simp [h]
    · rename_i h
      simp [h]
    · rename_i h
      simp [h]
    · rename_i h₁ h₂ h₃ h₄
      simp only [Bool.false_eq_true, List.mem_cons, List.not_mem_nil, or_false, false_iff]
      rintro (h | h | h | h)
      · exact h₁ h
      · exact h₂ h
      · exact h₃ h
      · exact h₄ h
  cases env with
  | none => simp [fromEnv]
  | some v => simp [fromEnv, hvalue]

end BindConfig

/-! ### Calls -/

/-- A call that needs the global configuration. -/
inductive ConfigCall
  | global
  | setGlobal (config : BindConfig)
  | effectiveRiskLevel (frame : BindFrame)

/-- What it returns. -/
inductive ConfigAnswer
  | config (config : BindConfig)
  | set (result : Except String Unit)
  | level (level : Option RiskLevel)
  deriving DecidableEq

namespace ConfigCall

/-- The configuration that a call stores if it finds none, and what it prints. -/
def make : ConfigCall → EnvVar → BindConfig × List String
  | .setGlobal config, _ => (config, [])
  | .global, env | .effectiveRiskLevel _, env => BindConfig.fromEnv env

/-- What a call returns on the configuration it has found, which is its own or not. -/
def answer (own : Bool) (config : BindConfig) : ConfigCall → ConfigAnswer
  | .global => .config config
  | .setGlobal _ => .set (if own then .ok () else .error "global config already initialized")
  | .effectiveRiskLevel frame => .level (frame.effectiveRiskLevelWithConfig config)

end ConfigCall

/-- The global configuration and the calls that need it. -/
abbrev ConfigState := WriteOnce.State ConfigCall EnvVar BindConfig

/-- A call begins, or takes its next step, with what the environment has at that moment. -/
abbrev ConfigAction := Threads.Action ConfigCall EnvVar

namespace ConfigState

/-- One action. -/
abbrev step : ConfigState → ConfigAction → Option ConfigState :=
  WriteOnce.step fun call env => (call.make env).1

/-- What the call with a given number has returned. -/
def answer (s : ConfigState) (i : ℕ) : Option ConfigAnswer :=
  match s.threads[i]? with
  | some { request, phase := .returned config own } => some (request.answer own config)
  | _ => none

/-- What was printed. -/
def printed (s : ConfigState) : List String :=
  s.shared.made.flatMap fun e => (e.1.make e.2).2

/-- The request of the call with a given number. -/
def request (s : ConfigState) (i : ℕ) : Option ConfigCall :=
  s.threads[i]?.map WriteOnce.Call.request

/-- The answers are those of one configuration. -/
structure Answers (s : ConfigState) (config : BindConfig) : Prop where
  /-- It is the one that is returned. -/
  global : ∀ i a, s.request i = some .global → s.answer i = some a → a = .config config
  /-- It is the one that rule 6 is applied with. -/
  level : ∀ i frame a, s.request i = some (.effectiveRiskLevel frame) → s.answer i = some a →
    a = .level (frame.effectiveRiskLevelWithConfig config)
  /-- It is the only one that was set by hand, and whoever else tried was told so. -/
  set : ∀ i config' a, s.request i = some (.setGlobal config') → s.answer i = some a →
    (a = .set (.ok ()) ∧ config' = config ∧ ∀ j, s.answer j = some (.set (.ok ())) → j = i) ∨
      a = .set (.error "global config already initialized")

variable {s : ConfigState} {i : ℕ} {a : ConfigAnswer}

/-- Rule 6 is in force for all frames or for none. -/
theorem Answers.rule6 {config : BindConfig} (h : s.Answers config) :
    (∀ i frame a, s.request i = some (.effectiveRiskLevel frame) → s.answer i = some a →
        frame.isReplayDisabled = true → a = .level (some .medium)) ∨
      ∀ i frame a, s.request i = some (.effectiveRiskLevel frame) → s.answer i = some a →
        a = .level (frame.pfp.map PfpHeader.riskLevel) := by
  cases hrule : config.rule6Enabled with
  | true =>
      refine Or.inl fun i frame a hr ha hreplay => ?_
      rw [h.level i frame a hr ha, BindFrame.effectiveRiskLevelWithConfig]
      rw [BindFrame.isReplayDisabled] at hreplay
      cases hpfp : frame.pfp with
      | none =>
          rw [hpfp] at hreplay
          cases hreplay
      | some pfp =>
          rw [hpfp] at hreplay
          dsimp only at hreplay ⊢
          rw [if_pos hrule, PfpHeader.effectiveRiskLevel, if_pos hreplay]
  | false =>
      refine Or.inr fun i frame a hr ha => ?_
      rw [h.level i frame a hr ha, BindFrame.effectiveRiskLevelWithConfig]
      cases frame.pfp with
      | none => rfl
      | some pfp =>
          dsimp only [Option.map_some]
          rw [if_neg (hrule ▸ Bool.false_ne_true)]

/-- The call that has returned an answer. -/
theorem answer_eq_some_iff :
    s.answer i = some a ↔ ∃ request config own,
      s.threads[i]? = some { request, phase := .returned config own } ∧
        request.answer own config = a := by
  rw [answer]
  split
  · rename_i request config own hi
    rw [hi, Option.some.injEq]
    constructor
    · rintro rfl
      exact ⟨request, config, own, rfl, rfl⟩
    · rintro ⟨request', config', own', hcall, rfl⟩
      cases hcall
      rfl
  · rename_i hnone
    constructor
    · intro h
      cases h
    · rintro ⟨request, config, own, hi, -⟩
      exact (hnone request config own hi).elim

/-- The answers where a leader has stored its configuration. -/
theorem answers_of_leader {request : ConfigCall} {env : EnvVar}
    (hreturned : ∀ (k : ℕ) (r : ConfigCall) (config : BindConfig) (own : Bool),
      s.threads[k]? = some { request := r, phase := .returned config own } →
        config = (request.make env).1 ∧ (own = true ↔ k = i))
    (hi : s.threads[i]? = some { request, phase := .returned (request.make env).1 true }) :
    s.Answers (request.make env).1 := by
  have hrequest {k : ℕ} {r r' : ConfigCall} {config : BindConfig} {own : Bool}
      (hr : s.request k = some r)
      (hk : s.threads[k]? = some { request := r', phase := .returned config own }) : r' = r := by
    rw [ConfigState.request, hk] at hr
    exact Option.some.inj hr
  refine ⟨fun k a hr ha => ?_, fun k frame a hr ha => ?_, fun k config' a hr ha => ?_⟩
  · obtain ⟨r, config, own, hk, rfl⟩ := answer_eq_some_iff.1 ha
    obtain rfl := hrequest hr hk
    rw [(hreturned k _ config own hk).1]
    rfl
  · obtain ⟨r, config, own, hk, rfl⟩ := answer_eq_some_iff.1 ha
    obtain rfl := hrequest hr hk
    rw [(hreturned k _ config own hk).1]
    rfl
  · obtain ⟨r, config, own, hk, rfl⟩ := answer_eq_some_iff.1 ha
    obtain rfl := hrequest hr hk
    cases own with
    | false => exact Or.inr rfl
    | true =>
        obtain rfl := (hreturned k _ config true hk).2.1 rfl
        cases hi.symm.trans hk
        refine Or.inl ⟨rfl, rfl, fun j hj => ?_⟩
        obtain ⟨r', config'', own, hj, hok⟩ := answer_eq_some_iff.1 hj
        refine (hreturned j r' config'' own hj).2.1 ?_
        -- only a call that has stored its own configuration is answered so
        cases r' with
        | setGlobal c =>
            cases own with
            | true => rfl
            | false => cases hok
        | global | effectiveRiskLevel => cases hok

/-- The calls that are in progress can all come to an answer. -/
theorem exists_answers (h : WriteOnce.Stage (fun call env => (ConfigCall.make call env).1) s)
    (env : EnvVar) :
    ∃ (order : List ℕ) (u : ConfigState),
      Runs.run ConfigState.step s (order.map fun i => .advance i env) = some u ∧
        ∀ i, i < u.threads.length → (u.answer i).isSome = true := by
  obtain ⟨order, -, u, hu, hleft⟩ := WriteOnce.exists_completion h env
  refine ⟨order, u, hu, fun i hi => ?_⟩
  have hcall := hleft _ (List.getElem_mem hi)
  have hget : u.threads[i]? = some u.threads[i] := List.getElem?_eq_getElem hi
  rw [Option.isSome_iff_exists]
  cases hphase : u.threads[i] with
  | mk request phase =>
      rw [hphase] at hcall hget
      cases phase with
      | returned config own => exact ⟨_, answer_eq_some_iff.2 ⟨request, config, own, hget, rfl⟩⟩
      | called | claimed | made => cases hcall

/-- **The configuration is decided once.**  Take any number of calls that ask for the global
configuration, try to set it, or ask for the risk level of a frame, with their steps in any order,
and let the environment be another one at every step.  Then all answers are those of one
configuration.  If there are any, either exactly one attempt to set it has succeeded, and nothing
was printed; or none has, and the configuration and what was printed are those that the environment
asked for at one step of the run.  The calls that are in progress can all come to an answer. -/
theorem run_global (actions : List ConfigAction) (s : ConfigState)
    (hrun : Runs.run ConfigState.step WriteOnce.init actions = some s) :
    ∃ config, s.Answers config ∧
      ((∃ i, (s.answer i).isSome = true) →
        ((∃! i, s.answer i = some (.set (.ok ()))) ∧ s.printed = []) ∨
          ((∀ i, s.answer i ≠ some (.set (.ok ()))) ∧
            ∃ i env, .advance i env ∈ actions ∧
              BindConfig.fromEnv env = (config, s.printed))) ∧
      ∀ env, ∃ (order : List ℕ) (u : ConfigState),
        Runs.run ConfigState.step s (order.map fun i => .advance i env) = some u ∧
          ∀ i, i < u.threads.length → (u.answer i).isSome = true := by
  have hstage : WriteOnce.Stage (fun call env => (ConfigCall.make call env).1) s :=
    WriteOnce.stage_of_run hrun
  have hend := exists_answers hstage
  by_cases hanswer : ∃ i, (s.answer i).isSome = true
  · obtain ⟨j, hj⟩ := hanswer
    obtain ⟨a, ha⟩ := Option.isSome_iff_exists.1 hj
    obtain ⟨r, v, own, hj, -⟩ := answer_eq_some_iff.1 ha
    obtain ⟨i, request, env, hmade, hi, hreturned⟩ := hstage.agree hj
    have hanswers := answers_of_leader hreturned hi
    have hprinted : s.printed = (request.make env).2 := by
      rw [printed, hmade, List.flatMap_singleton]
    refine ⟨_, hanswers, fun _ => ?_, hend⟩
    cases request with
    | setGlobal config =>
        have hok : s.answer i = some (.set (.ok ())) :=
          answer_eq_some_iff.2 ⟨_, _, _, hi, rfl⟩
        refine Or.inl ⟨⟨i, hok, fun k hk => ?_⟩, hprinted⟩
        rcases hanswers.set i config _ (by rw [ConfigState.request, hi]; rfl) hok with
          ⟨-, -, hunique⟩ | herror
        · exact hunique k hk
        · cases herror
    | global | effectiveRiskLevel =>
        refine Or.inr ⟨fun k hk => ?_, ?_⟩
        · -- a call that has set the configuration would be the leader
          obtain ⟨r', config', own', hk, hok⟩ := answer_eq_some_iff.1 hk
          cases r' with
          | setGlobal c =>
              cases own' with
              | true =>
                  obtain rfl := (hreturned k _ config' true hk).2.1 rfl
                  cases hi.symm.trans hk
              | false => cases hok
          | global | effectiveRiskLevel => cases hok
        · have hread := WriteOnce.input_of_run hrun
            (e := (_, env)) (hmade ▸ List.mem_singleton_self _)
          rcases hread with hnone | ⟨k, hk⟩
          · cases hnone
          · exact ⟨k, env, hk, by rw [hprinted]; rfl⟩
  · refine ⟨default, ⟨fun k a _ ha => ?_, fun k frame a _ ha => ?_, fun k config a _ ha => ?_⟩,
      fun h => (hanswer h).elim, hend⟩
    all_goals exact (hanswer ⟨k, by rw [ha]; rfl⟩).elim

/-- A frame with a catastrophic risk level and the Replay-Enable bit off. -/
def uncheckedFrame : BindFrame :=
  { header := BindHeader.new .data 1 flagPfpPresent 0 0
    pfp := some (PfpHeader.new .executive .catastrophic .moving .criticalEdge .external
      .normal false)
    sap := none
    payload := [] }

/-- Three calls at once: the one that reads the environment is overtaken by nobody, though the
variable is gone when it stores what it has read. -/
def contendedCalls : List ConfigAction :=
  [.spawn .global, .spawn (.setGlobal default), .spawn (.effectiveRiskLevel uncheckedFrame),
    .advance 0 none, .advance 0 (some "Yes"), .advance 0 none, .advance 2 (some "0"),
    .advance 1 none]

/-- The state afterwards. -/
def afterContendedCalls : ConfigState :=
  (Runs.run ConfigState.step WriteOnce.init contendedCalls).get (by decide)

/-- They agree on one configuration. -/
theorem run_global_contendedCalls :
    (∃ config, afterContendedCalls.Answers config) ∧
      afterContendedCalls.answer 2 = some (.level (some .catastrophic)) ∧
      afterContendedCalls.printed = BindConfig.debugBanner := by
  obtain ⟨config, h, -⟩ := run_global contendedCalls afterContendedCalls (Option.some_get _).symm
  exact ⟨⟨config, h⟩, by decide +kernel, by decide +kernel⟩

end ConfigState

end Bind19
