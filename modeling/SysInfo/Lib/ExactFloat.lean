import Mathlib.Algebra.Order.Field.Rat
import Mathlib.Tactic.Common
import Mathlib.Tactic.Linarith

/-!
# Floating point values in exact arithmetic

A `float` of the program is either a number, computed without rounding, or one of the special
values that division makes: the two infinities and NaN. Rounding is left out on purpose, the
special values are not: a division by zero is visible in its result (`div_fin_eq_fin_iff`), and a
comparison with NaN is false both ways.
-/

namespace SysInfo.Lib

/-- A `float` without rounding. -/
inductive ExactFloat where
  | fin (q : ℚ)
  | posInf
  | negInf
  | nan
  deriving DecidableEq, Repr

namespace ExactFloat

/-- `x < y` as IEEE 754 has it: false as soon as a NaN is involved. -/
def lt : ExactFloat → ExactFloat → Bool
  | fin a, fin b => decide (a < b)
  | fin _, posInf => true
  | negInf, fin _ => true
  | negInf, posInf => true
  | _, _ => false

/-- `±∞` with the sign of `q`, NaN for 0: what a non-zero or infinite value over zero gives. -/
def signedInf (q : ℚ) : ExactFloat :=
  if 0 < q then posInf else if q < 0 then negInf else nan

/-- `x - y`: of two infinities of one sign the difference is NaN. -/
def sub : ExactFloat → ExactFloat → ExactFloat
  | fin a, fin b => fin (a - b)
  | fin _, posInf => negInf
  | fin _, negInf => posInf
  | posInf, fin _ => posInf
  | posInf, negInf => posInf
  | negInf, fin _ => negInf
  | negInf, posInf => negInf
  | _, _ => nan

/-- `x / y`, a zero divisor counting as `+0`. -/
def div : ExactFloat → ExactFloat → ExactFloat
  | fin a, fin b => if b = 0 then signedInf a else fin (a / b)
  | fin _, posInf => fin 0
  | fin _, negInf => fin 0
  | posInf, fin b => if b < 0 then negInf else posInf
  | negInf, fin b => if b < 0 then posInf else negInf
  | _, _ => nan

instance : LT ExactFloat := ⟨fun x y => lt x y = true⟩

instance : DecidableLT ExactFloat := fun x y => inferInstanceAs (Decidable (lt x y = true))

instance : Sub ExactFloat := ⟨sub⟩

instance : Div ExactFloat := ⟨div⟩

/-! ## Comparison -/

@[simp] theorem fin_lt_fin {a b : ℚ} : fin a < fin b ↔ a < b := by
  show lt (fin a) (fin b) = true ↔ a < b
  simp [lt]

@[simp] theorem fin_lt_posInf (a : ℚ) : fin a < posInf := rfl

@[simp] theorem not_posInf_lt (x : ExactFloat) : ¬ posInf < x := by
  show ¬ lt posInf x = true
  cases x <;> simp [lt]

@[simp] theorem not_nan_lt (x : ExactFloat) : ¬ nan < x := by
  show ¬ lt nan x = true
  cases x <;> simp [lt]

@[simp] theorem not_lt_nan (x : ExactFloat) : ¬ x < nan := by
  show ¬ lt x nan = true
  cases x <;> simp [lt]

/-! ## Arithmetic -/

@[simp] theorem fin_sub_fin (a b : ℚ) : fin a - fin b = fin (a - b) := rfl

@[simp] theorem fin_div_fin {a b : ℚ} (hb : b ≠ 0) : fin a / fin b = fin (a / b) := by
  show div (fin a) (fin b) = _
  simp [div, hb]

@[simp] theorem fin_div_zero (a : ℚ) : fin a / fin 0 = signedInf a := by
  show div (fin a) (fin 0) = _
  simp [div]

theorem signedInf_of_pos {a : ℚ} (ha : 0 < a) : signedInf a = posInf := by
  simp [signedInf, ha]

@[simp] theorem signedInf_zero : signedInf 0 = nan := by simp [signedInf]

@[simp] theorem signedInf_ne_fin (a q : ℚ) : signedInf a ≠ fin q := by
  unfold signedInf
  split
  · simp
  · split <;> simp

@[simp] theorem nan_div (x : ExactFloat) : nan / x = nan := by
  show div nan x = nan
  cases x <;> rfl

theorem signedInf_mul {k : ℚ} (hk : 0 < k) (a : ℚ) : signedInf (a * k) = signedInf a := by
  have hneg : a * k < 0 ↔ a < 0 := by
    constructor
    · intro hlt
      exact neg_of_mul_neg_left hlt hk.le
    · intro hlt
      exact mul_neg_of_neg_of_pos hlt hk
  simp only [signedInf, mul_pos_iff_of_pos_right hk, hneg]

/-- A factor that both have cancels, from a quotient by zero, too. -/
theorem fin_mul_div_fin_mul {k : ℚ} (hk : 0 < k) (a b : ℚ) :
    fin (a * k) / fin (b * k) = fin a / fin b := by
  by_cases hb : b = 0
  · rw [hb, zero_mul, fin_div_zero, fin_div_zero, signedInf_mul hk]
  · rw [fin_div_fin hb, fin_div_fin (mul_ne_zero hb hk.ne'), mul_div_mul_right _ _ hk.ne']

/-- **A quotient of numbers is a number exactly when nothing was divided by zero.** -/
theorem div_fin_eq_fin_iff {a b q : ℚ} : fin a / fin b = fin q ↔ b ≠ 0 ∧ a / b = q := by
  by_cases hb : b = 0
  · subst hb; simp
  · simp [hb]

end ExactFloat

end SysInfo.Lib
