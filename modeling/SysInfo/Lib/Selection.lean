import Mathlib.Algebra.BigOperators.Group.List.Basic
import Mathlib.Data.Nat.ModEq
import Mathlib.Tactic.Common

/-!
# Totals over a selection

The sum of a quantity over those elements of a list that a predicate selects, and when two
selections have the same one.
-/

namespace SysInfo.Lib

/-- The sum of `f` over the elements that `p` selects. -/
def total {α M : Type*} [AddCommMonoid M] (p : α → Bool) (f : α → M) (l : List α) : M :=
  ((l.filter p).map f).sum

section

variable {α M : Type*} [AddCommMonoid M] {p q : α → Bool} {f : α → M} {l l' : List α} {a : α}

@[simp] theorem total_nil : total p f [] = 0 := rfl

theorem total_cons : total p f (a :: l) = (if p a then f a else 0) + total p f l := by
  unfold total
  by_cases ha : p a = true
  · rw [List.filter_cons_of_pos ha, List.map_cons, List.sum_cons, if_pos ha]
  · rw [List.filter_cons_of_neg ha, if_neg ha, zero_add]

theorem total_append : total p f (l ++ l') = total p f l + total p f l' := by
  simp [total, List.filter_append]

theorem total_congr (h : ∀ a ∈ l, p a = q a) : total p f l = total q f l := by
  rw [total, total, List.filter_congr h]

theorem total_perm (h : l.Perm l') : total p f l = total p f l' := ((h.filter p).map f).sum_eq

theorem total_eq_zero (h : ∀ a ∈ l, f a = 0) : total p f l = 0 := by
  unfold total
  apply List.sum_eq_zero
  intro x hx
  obtain ⟨a, ha, rfl⟩ := List.mem_map.mp hx
  exact h a (List.mem_filter.mp ha).1

/-- A selection falls into what another one selects too and what it does not. -/
theorem total_split (p q : α → Bool) (f : α → M) (l : List α) :
    total p f l = total (fun a => p a && q a) f l + total (fun a => p a && !q a) f l := by
  induction l with
  | nil => simp
  | cons a l ih =>
    rw [total_cons, total_cons, total_cons, ih]
    -- `a` counts in the first part, in the second, or in neither
    cases p a <;> cases q a <;> grind

end

/-- **Two selections have the same total** exactly when what only the one selects has the total of
what only the other does. -/
theorem total_modEq_iff {α : Type*} (p q : α → Bool) (f : α → ℕ) (l : List α) (m : ℕ) :
    total p f l ≡ total q f l [MOD m] ↔
      total (fun a => p a && !q a) f l ≡ total (fun a => q a && !p a) f l [MOD m] := by
  have hcommon : total (fun a => q a && p a) f l = total (fun a => p a && q a) f l := by
    simp only [Bool.and_comm]
  rw [total_split p q, total_split q p, hcommon]
  constructor
  · exact Nat.ModEq.add_left_cancel' _
  · exact Nat.ModEq.add_left _

end SysInfo.Lib
