import Mathlib.Tactic.NormNum
import SysInfo.Lib.ExactFloat
import SysInfo.Lib.Ladder

/-!
# The states of the percentage agents

`LoadAverage`, `SwapUsage` and `MemoryUsage` compute their state in the same way: the user's states
first, then a table of their own, of which the first entry above the value is taken, and then
whatever the framework has.

    value ──▶ states of the user ──▶ default_states ──▶ Abstract::Agent::computeState()

What is left for the framework are the values no entry is above, and the last entry of all three
tables is 1 (`severity_graded_iff`).
-/

namespace SysInfo.Agent

open Lib (ExactFloat Ladder)

/-- `Udjat::Level`, as far as the tables have it. -/
inductive Level where
  | ready
  | warning
  | error
  | critical
  deriving DecidableEq, Repr

def Level.rank : Level → ℕ
  | .ready => 0
  | .warning => 1
  | .error => 2
  | .critical => 3

instance : Preorder Level := Preorder.lift Level.rank

instance : DecidableLE Level := fun a b => inferInstanceAs (Decidable (a.rank ≤ b.rank))

/-- An entry of `default_states`. -/
structure DefaultState where
  value : ℚ
  name : String
  level : Level
  summary : String
  body : String

/-- Where a state comes from: from the user's list, from the table of the agent, or from
`Abstract::Agent::computeState()`. -/
inductive Computed (σ : Type) where
  | user (state : σ)
  | own (state : DefaultState)
  | framework

/-- The three functions, with the table and the stored value as parameters. `compare` is the method
of the user's states. -/
def computeState {σ : Type} (compare : σ → ExactFloat → Bool) (defaults : Ladder DefaultState.level)
    (states : List σ) (current : ExactFloat) : Computed σ :=
  match states.find? (compare · current) with
  | some state => .user state
  | none =>
    match defaults.first (fun state => current < .fin state.value) with
    | some state => .own state
    | none => .framework

/-! ## The tables -/

namespace LoadAverage

def defaultStates : Ladder DefaultState.level where
  rungs := [
    { value := 0.5, name := "good", level := .ready
      summary := "System load is ${value}", body := "" },
    { value := 0.8, name := "gt50", level := .warning
      summary := "System load is ${value}", body := "" },
    { value := 0.95, name := "gt90", level := .error
      summary := "System load is ${value}", body := "" },
    { value := 1.0, name := "full", level := .critical
      summary := "System load is ${value}", body := "" }]
  sorted := by decide

/-- `System::LoadAverage::computeState()`. -/
def computeState {σ : Type} (compare : σ → ExactFloat → Bool) (states : List σ)
    (current : ExactFloat) : Computed σ :=
  Agent.computeState compare defaultStates states current

end LoadAverage

namespace SwapUsage

def defaultStates : Ladder DefaultState.level where
  rungs := [
    { value := 0.1, name := "low", level := .ready
      summary := "Swap usage is ${value}", body := "" },
    { value := 0.5, name := "low", level := .ready
      summary := "Swap usage is ${value}", body := "" },
    { value := 0.8, name := "medium", level := .warning
      summary := "Swap usage is ${value}", body := "" },
    { value := 0.9, name := "high", level := .error
      summary := "Swap usage is ${value}", body := "" },
    { value := 1.0, name := "critical", level := .critical
      summary := "Swap usage is ${value}", body := "" }]
  sorted := by decide

/-- `System::SwapUsage::computeState()`. -/
def computeState {σ : Type} (compare : σ → ExactFloat → Bool) (states : List σ)
    (current : ExactFloat) : Computed σ :=
  Agent.computeState compare defaultStates states current

end SwapUsage

namespace MemoryUsage

def defaultStates : Ladder DefaultState.level where
  rungs := [
    { value := 0.8, name := "low", level := .ready
      summary := "${value} of total memory in use", body := "" },
    { value := 0.9, name := "medium", level := .warning
      summary := "${value} of total memory in use", body := "" },
    { value := 1.0, name := "high", level := .error
      summary := "${value} of total memory in use", body := "" }]
  sorted := by decide

/-- `System::MemoryUsage::computeState()`. -/
def computeState {σ : Type} (compare : σ → ExactFloat → Bool) (states : List σ)
    (current : ExactFloat) : Computed σ :=
  Agent.computeState compare defaultStates states current

end MemoryUsage

/-! ## Severity -/

/-- The agents with a table. -/
inductive Kind where
  | loadAverage
  | swapUsage
  | memoryUsage
  deriving DecidableEq, Repr

namespace Kind

def defaultStates : Kind → Ladder DefaultState.level
  | .loadAverage => LoadAverage.defaultStates
  | .swapUsage => SwapUsage.defaultStates
  | .memoryUsage => MemoryUsage.defaultStates

def computeState {σ : Type} (compare : σ → ExactFloat → Bool) :
    Kind → List σ → ExactFloat → Computed σ
  | .loadAverage => LoadAverage.computeState compare
  | .swapUsage => SwapUsage.computeState compare
  | .memoryUsage => MemoryUsage.computeState compare

end Kind

section Severity

variable {σ : Type} {compare : σ → ExactFloat → Bool} {v w : ℚ}

/-- Where no state of the user takes the value the first entry above it decides. -/
theorem computeState_own_iff {states : List σ} (hstates : ∀ s ∈ states, compare s (.fin v) = false)
    {defaults : Ladder DefaultState.level} {state : DefaultState} :
    computeState compare defaults states (.fin v) = .own state ↔
      defaults.first (fun s => v < s.value) = some state := by
  have huser : states.find? (compare · (.fin v)) = none := by
    rw [List.find?_eq_none]
    intro s hs
    simp [hstates s hs]
  simp only [computeState, huser, ExactFloat.fin_lt_fin]
  cases defaults.first (fun s => decide (v < s.value)) with
  | none => simp
  | some s => simp

/-- No table goes beyond 1, -/
theorem Kind.value_le_one (agent : Kind) :
    ∀ state ∈ agent.defaultStates.rungs, state.value ≤ 1 := by
  cases agent <;>
    norm_num [Kind.defaultStates, LoadAverage.defaultStates, SwapUsage.defaultStates,
      MemoryUsage.defaultStates]

/-- and every table reaches it. -/
theorem Kind.exists_value_eq_one (agent : Kind) :
    ∃ state ∈ agent.defaultStates.rungs, state.value = 1 := by
  cases agent <;>
    norm_num [Kind.defaultStates, LoadAverage.defaultStates, SwapUsage.defaultStates,
      MemoryUsage.defaultStates]

/-- So there is an entry above a value exactly when the value is below 1. -/
theorem Kind.first_iff (agent : Kind) :
    (∃ state, agent.defaultStates.first (fun s => v < s.value) = some state) ↔ v < 1 := by
  simp only [Ladder.exists_first_iff, decide_eq_true_eq]
  constructor
  · rintro ⟨state, hstate, hv⟩
    exact hv.trans_le (agent.value_le_one state hstate)
  · intro hv
    obtain ⟨state, hstate, hone⟩ := agent.exists_value_eq_one
    exact ⟨state, hstate, by rwa [hone]⟩

theorem Kind.own_iff (agent : Kind) {states : List σ}
    (hstates : ∀ s ∈ states, compare s (.fin v) = false) {state : DefaultState} :
    agent.computeState compare states (.fin v) = .own state ↔
      agent.defaultStates.first (fun s => v < s.value) = some state := by
  cases agent <;> exact computeState_own_iff hstates

theorem Kind.nil_own_iff (agent : Kind) {state : DefaultState} :
    agent.computeState compare [] (.fin v) = .own state ↔
      agent.defaultStates.first (fun s => v < s.value) = some state :=
  agent.own_iff (by simp)

/-- What the tables are for: both values have a state of the agent's own, and that of the larger
one is at least as severe. -/
def Graded (compare : σ → ExactFloat → Bool) (agent : Kind) (v w : ℚ) : Prop :=
  ∃ s t, s ∈ agent.defaultStates.rungs ∧ t ∈ agent.defaultStates.rungs ∧
    agent.computeState compare [] (.fin v) = .own s ∧
    agent.computeState compare [] (.fin w) = .own t ∧ s.level ≤ t.level

/-- **Where the severity is graded**: for all values below 1. -/
theorem severity_graded_iff (compare : σ → ExactFloat → Bool) (agent : Kind) (v w : ℚ)
    (hvw : v ≤ w) : Graded compare agent v w ↔ w < 1 := by
  constructor
  · rintro ⟨s, t, -, -, -, hw, -⟩
    rw [agent.nil_own_iff] at hw
    exact agent.first_iff.mp ⟨t, hw⟩
  · intro hw
    obtain ⟨s, hs⟩ := agent.first_iff.mpr (hvw.trans_lt hw)
    obtain ⟨t, ht⟩ := agent.first_iff.mpr hw
    refine ⟨s, t, Ladder.mem_of_first hs, Ladder.mem_of_first ht, agent.nil_own_iff.mpr hs,
      agent.nil_own_iff.mpr ht, Ladder.first_mono ?_ hs ht⟩
    intro r _ hr
    exact decide_eq_true (hvw.trans_lt (of_decide_eq_true hr))

theorem severity_graded_half :
    Graded (fun (state : Unit) _ => state == ()) .memoryUsage (1 / 2) (9 / 10) ↔ (9 / 10 : ℚ) < 1 :=
  severity_graded_iff _ _ _ _ (by norm_num)

/-- A swap space with nothing free has no state of the agent's own. -/
theorem not_graded_full_swap :
    ¬ Graded (fun (state : Unit) _ => state == ()) .swapUsage (1 / 2) 1 := by
  rintro ⟨s, t, -, -, -, hw, -⟩
  rw [Kind.nil_own_iff] at hw
  exact lt_irrefl 1 ((Kind.first_iff .swapUsage).mp ⟨t, hw⟩)

end Severity

end SysInfo.Agent
