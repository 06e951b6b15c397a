import Mathlib.Data.List.Induction
import Mathlib.Tactic.Common

/-!
# Machines explained by simpler ones

A machine is a step function `step : σ → ι → σ`, and a run is the fold of it over a list of inputs.
A `Simulation` relates it to an abstract machine that sees some of the inputs, in its own form, and
does not see the others. What the two agree on after one step they agree on after every run
(`abs_run`), so runs with the same visible inputs cannot be told apart (`abs_run_congr`).
-/

namespace SysInfo.Lib

variable {σ ι σ' ι' : Type*}

/-- A simulation of `step` by `step'`, on the states in which an invariant holds. -/
structure Simulation (step : σ → ι → σ) (step' : σ' → ι' → σ') where
  Inv : σ → Prop
  abs : σ → σ'
  /-- What the abstract machine sees of an input, if it sees it. -/
  view : ι → Option ι'
  keeps : ∀ s i, Inv s → Inv (step s i)
  hidden : ∀ s i, Inv s → view i = none → abs (step s i) = abs s
  visible : ∀ s i j, Inv s → view i = some j → abs (step s i) = step' (abs s) j

namespace Simulation

variable {step : σ → ι → σ} {step' : σ' → ι' → σ'} (S : Simulation step step')

theorem inv_run {s : σ} (hs : S.Inv s) (is : List ι) : S.Inv (is.foldl step s) := by
  induction is generalizing s with
  | nil => exact hs
  | cons i is ih => exact ih (S.keeps s i hs)

/-- **A run is explained by the abstract run** over what is seen of its inputs. -/
theorem abs_run {s : σ} (hs : S.Inv s) (is : List ι) :
    S.abs (is.foldl step s) = (is.filterMap S.view).foldl step' (S.abs s) := by
  induction is generalizing s with
  | nil => rfl
  | cons i is ih =>
    rw [List.foldl_cons, ih (S.keeps s i hs)]
    cases hi : S.view i with
    | none => rw [List.filterMap_cons_none hi, S.hidden s i hs hi]
    | some j => rw [List.filterMap_cons_some hi, List.foldl_cons, S.visible s i j hs hi]

/-- **Non-interference**: from states that are abstracted alike, inputs that are seen alike lead to
states that are abstracted alike. -/
theorem abs_run_congr {s t : σ} (hs : S.Inv s) (ht : S.Inv t) (hst : S.abs s = S.abs t)
    {is js : List ι} (hview : is.filterMap S.view = js.filterMap S.view) :
    S.abs (is.foldl step s) = S.abs (js.foldl step t) := by
  rw [S.abs_run hs, S.abs_run ht, hst, hview]

end Simulation

/-! ## The machine that remembers the last input -/

/-- A machine that replaces its state by the input ends with the last one. -/
theorem foldl_replace {α : Type*} (l : List α) (a : α) :
    l.foldl (fun _ v => v) a = l.getLast?.getD a := by
  induction l using List.reverseRecOn with
  | nil => rfl
  | append_singleton l v ih => simp

/-- **A machine that can be seen to replace a value** has the last one it was seen to take. -/
theorem Simulation.last_run {step : σ → ι → σ} (S : Simulation step fun (_ v : σ') => v) {s : σ}
    (hs : S.Inv s) (is : List ι) :
    S.abs (is.foldl step s) = (is.filterMap S.view).getLast?.getD (S.abs s) := by
  rw [S.abs_run hs, foldl_replace]

end SysInfo.Lib
