import Mathlib.Algebra.BigOperators.Group.List.Basic
import Mathlib.Algebra.GroupWithZero.Nat
import Mathlib.Tactic.Common

/-!
# Counting the events of a run on several accounts

Every event of a run is charged to some accounts, possibly to more than one, possibly to one more
than once. Summing over the accounts is summing over the events (`sum_tally`), so a sum over
accounts counts an event as often as it has been charged to one of them.
-/

namespace SysInfo.Lib

/-- How often the events of a run are charged to an account. -/
def tally {τ κ : Type*} [DecidableEq κ] (charges : τ → List κ) (run : List τ) (k : κ) : ℕ :=
  (run.map fun t => (charges t).count k).sum

variable {τ κ : Type*} [DecidableEq κ] {charges : τ → List κ}

theorem tally_cons (t : τ) (run : List τ) (k : κ) :
    tally charges (t :: run) k = (charges t).count k + tally charges run k := by
  rw [tally, List.map_cons, List.sum_cons, tally]

theorem tally_append (run run' : List τ) (k : κ) :
    tally charges (run ++ run') k = tally charges run k + tally charges run' k := by
  rw [tally, List.map_append, List.sum_append, tally, tally]

/-- **Counting twice**: the sum over the accounts is the sum over the events. -/
theorem sum_tally (ks : List κ) (run : List τ) :
    (ks.map (tally charges run)).sum =
      (run.map fun t => (ks.map fun k => (charges t).count k).sum).sum := by
  induction run with
  | nil =>
    have hzero : tally charges [] = fun _ => 0 := rfl
    simp [hzero]
  | cons t run ih =>
    have hcons : tally charges (t :: run) =
        fun k => (charges t).count k + tally charges run k := by
      funext k
      exact tally_cons t run k
    rw [hcons, List.sum_map_add, List.map_cons, List.sum_cons]
    exact congrArg _ ih

end SysInfo.Lib
