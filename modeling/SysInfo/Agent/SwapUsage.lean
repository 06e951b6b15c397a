import Mathlib.Algebra.Order.Field.Basic
import SysInfo.Agent.DefaultStates
import SysInfo.Host

/-!
# `System::SwapUsage`

A refresh asks for the swap space, stores what part of it is in use, and `computeState` grades the
stored value.

    sysinfo ──▶ (total - free) / total ──▶ default_states

A machine without swap space answers with a total of 0. The division then stores a value that is no
number, and that no entry of the table is above (`swap_fraction_iff`).
-/

namespace SysInfo.Agent

open Lib (ExactFloat Ladder)

/-- `struct sysinfo`, as far as the agent reads it. -/
structure Sysinfo where
  totalswap : ℕ
  freeswap : ℕ
  deriving DecidableEq

/-- `System::SwapUsage`. -/
structure SwapUsage where
  value : ExactFloat := .fin 0
  deriving DecidableEq

namespace SwapUsage

/-- `refresh()`. `sysinfo` is what the call fills in, or the error it sets. -/
def refresh (sysinfo : Except Errno Sysinfo) : EStateM Exception SwapUsage Unit := do
  match sysinfo with
  | .error errno => throw (.systemError errno (some "Can't get system information"))
  | .ok info =>
    let free : ExactFloat := .fin info.freeswap
    let total : ExactFloat := .fin info.totalswap
    let usage := (total - free) / total
    set ({ value := usage } : SwapUsage)

/-! ## The fraction -/

section Fraction

variable {σ : Type}

/-- What a refresh is for: it returns and leaves a number from 0 to 1, the part of the swap space
that is in use if there is any, and unless a state of the user takes the number it is graded by the
first entry of the table above it. -/
def StoresFraction (compare : σ → ExactFloat → Bool) (info : Sysinfo) (a : SwapUsage) : Prop :=
  ∃ q : ℚ, (refresh (.ok info)).run a = .ok () { a with value := .fin q } ∧ 0 ≤ q ∧ q ≤ 1 ∧
    (0 < info.totalswap → q = (info.totalswap - info.freeswap) / info.totalswap) ∧
    (q < 1 → ∀ states : List σ, (∀ s ∈ states, compare s (.fin q) = false) →
      ∃ pre state post, defaultStates.rungs = pre ++ state :: post ∧
        (∀ s ∈ pre, s.value ≤ q) ∧ q < state.value ∧
        computeState compare states (.fin q) = .own state)

/-- What a refresh stores is a number exactly when the quotient is one. -/
theorem refresh_eq_fin_iff {info : Sysinfo} {a : SwapUsage} {q : ℚ} :
    (refresh (.ok info)).run a = .ok () { a with value := .fin q } ↔
      (info.totalswap : ℚ) ≠ 0 ∧ (info.totalswap - info.freeswap : ℚ) / info.totalswap = q := by
  rw [← ExactFloat.div_fin_eq_fin_iff]
  show EStateM.Result.ok () (SwapUsage.mk _) = .ok () (SwapUsage.mk _) ↔ _
  rw [EStateM.Result.ok.injEq, SwapUsage.mk.injEq, ExactFloat.fin_sub_fin]
  simp

/-- A number below 1 is graded by the first entry above it. -/
theorem exists_state_of_lt_one {compare : σ → ExactFloat → Bool} {q : ℚ} (hq : q < 1)
    {states : List σ} (hstates : ∀ s ∈ states, compare s (.fin q) = false) :
    ∃ pre state post, defaultStates.rungs = pre ++ state :: post ∧
      (∀ s ∈ pre, s.value ≤ q) ∧ q < state.value ∧
      computeState compare states (.fin q) = .own state := by
  obtain ⟨state, hfirst⟩ := (Kind.first_iff .swapUsage).mpr hq
  obtain ⟨pre, post, hsplit, hpre⟩ := Ladder.exists_split_of_first hfirst
  refine ⟨pre, state, post, hsplit, ?_, ?_, (Kind.own_iff .swapUsage hstates).mpr hfirst⟩
  · intro s hs
    exact not_lt.mp (of_decide_eq_false (hpre s hs))
  · have htakes := Ladder.takes_of_first hfirst
    exact of_decide_eq_true htakes

/-- **When swap usage is a fraction**: on a machine that has swap space. -/
theorem swap_fraction_iff (compare : σ → ExactFloat → Bool) (info : Sysinfo)
    (hfree : info.freeswap ≤ info.totalswap) (a : SwapUsage) :
    StoresFraction compare info a ↔ 0 < info.totalswap := by
  constructor
  · -- what is stored is a number only if nothing was divided by zero
    rintro ⟨q, hrun, -⟩
    obtain ⟨hne, -⟩ := refresh_eq_fin_iff.mp hrun
    apply Nat.pos_of_ne_zero
    exact_mod_cast hne
  · intro hpos
    have htotal : (0 : ℚ) < info.totalswap := by exact_mod_cast hpos
    have hle : (info.freeswap : ℚ) ≤ info.totalswap := by exact_mod_cast hfree
    have hnonneg : (0 : ℚ) ≤ info.freeswap := Nat.cast_nonneg _
    refine ⟨_, refresh_eq_fin_iff.mpr ⟨htotal.ne', rfl⟩, ?_, ?_, fun _ => rfl, ?_⟩
    · apply div_nonneg _ htotal.le
      linarith
    · rw [div_le_one htotal]
      linarith
    · intro hq states hstates
      exact exists_state_of_lt_one hq hstates

theorem swap_fraction_quarter :
    StoresFraction (fun (state : Unit) _ => state == ()) ⟨2097152, 1572864⟩ {} ↔
      0 < (⟨2097152, 1572864⟩ : Sysinfo).totalswap :=
  swap_fraction_iff _ _ (by decide) _

/-- A machine without swap space. -/
theorem not_swap_fraction_none :
    ¬ StoresFraction (fun (state : Unit) _ => state == ()) ⟨0, 0⟩ {} ∧
      (refresh (.ok ⟨0, 0⟩)).run {} = .ok () { value := .nan } := by
  constructor
  · rintro ⟨q, hrun, -⟩
    exact (refresh_eq_fin_iff.mp hrun).1 rfl
  · show EStateM.Result.ok () (SwapUsage.mk ((.fin (0 : ℕ) - .fin (0 : ℕ)) / .fin (0 : ℕ))) = _
    rw [Nat.cast_zero, ExactFloat.fin_sub_fin, sub_zero, ExactFloat.fin_div_zero,
      ExactFloat.signedInf_zero]

end Fraction

end SwapUsage

end SysInfo.Agent
