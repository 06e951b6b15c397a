import Mathlib.Algebra.Order.Field.Rat
import Mathlib.Algebra.Order.Group.Unbundled.Abs
import Mathlib.Tactic.FieldSimp
import Mathlib.Tactic.Linarith
import Mathlib.Tactic.NormNum
import Mathlib.Tactic.Positivity
import Mathlib.Tactic.Ring
import SysInfo.Lib.CScan

/-!
# Numbers with a fixed count of decimals

    value ──nearest integer of value * 10 ^ k──▶ n ──fixed k──▶ text ──readFixed──▶ n / 10 ^ k

Reading undoes writing (`readFixed_fixed`), so what is lost between the value and what is read is
lost by rounding to the nearest integer: half a unit of the last decimal (`abs_div_pow_sub_le`), and
never the order of two values (`Nearest.le_of_lt`).
-/

namespace SysInfo.Lib.FixedPoint

open CScan

/-! ## Rounding -/

/-- No integer is closer to `q` than `n`. -/
def Nearest (n : ℤ) (q : ℚ) : Prop := |n - q| ≤ 1 / 2

/-- Rounding to a nearest integer does not turn the order of two numbers round. -/
theorem Nearest.le_of_lt {m n : ℤ} {p q : ℚ} (hm : Nearest m p) (hn : Nearest n q) (hpq : p < q) :
    m ≤ n := by
  have hlow := (abs_le.mp hm).2
  have hhigh := (abs_le.mp hn).1
  have hlt : (m : ℚ) < n + 1 := by linarith
  exact Int.lt_add_one_iff.mp (by exact_mod_cast hlt)

/-- The only integer nearest to an integer is that integer. -/
theorem Nearest.eq_of_int {m n : ℤ} (h : Nearest m n) : m = n := by
  obtain ⟨hlow, hhigh⟩ := abs_le.mp h
  have hle : (m : ℚ) < n + 1 := by linarith
  have hge : (n : ℚ) < m + 1 := by linarith
  have hle' : m < n + 1 := by exact_mod_cast hle
  have hge' : n < m + 1 := by exact_mod_cast hge
  omega

theorem Nearest.nonneg {n : ℤ} {q : ℚ} (h : Nearest n q) (hq : 0 ≤ q) : 0 ≤ n := by
  have hlow := (abs_le.mp h).1
  have hlt : (-1 : ℚ) < n := by linarith
  have hint : -1 < n := by exact_mod_cast hlt
  omega

/-- Half a unit of the last decimal is lost. -/
theorem abs_div_pow_sub_le {k n : ℕ} {q : ℚ} (h : Nearest n (q * 10 ^ k)) :
    |(n : ℚ) / 10 ^ k - q| ≤ 1 / (2 * 10 ^ k) := by
  have hpow : (0 : ℚ) < 10 ^ k := by positivity
  have hsplit : (n : ℚ) / 10 ^ k - q = (n - q * 10 ^ k) / 10 ^ k := by
    field_simp
  rw [hsplit, abs_div, abs_of_pos hpow, div_le_div_iff₀ hpow (by positivity)]
  have hdiff : |(n : ℚ) - q * 10 ^ k| ≤ 1 / 2 := by exact_mod_cast h
  nlinarith

/-! ## Writing -/

/-- The last `k` decimal digits of a number. -/
def lastDigits : ℕ → ℕ → List Char
  | 0, _ => []
  | k + 1, n => lastDigits k (n / 10) ++ [Nat.digitChar (n % 10)]

/-- `n / 10 ^ k` with `k` decimals. -/
def fixed (k n : ℕ) : List Char := decimal (n / 10 ^ k) ++ '.' :: lastDigits k n

theorem length_lastDigits (k n : ℕ) : (lastDigits k n).length = k := by
  induction k generalizing n with
  | zero => rfl
  | succ k ih => rw [lastDigits, List.length_append, ih, List.length_singleton]

theorem isDigit_of_mem_lastDigits {k n : ℕ} {c : Char} (hc : c ∈ lastDigits k n) :
    c.isDigit = true := by
  induction k generalizing n with
  | zero => cases hc
  | succ k ih =>
    rcases List.mem_append.mp hc with hc | hc
    · exact ih hc
    · rw [List.mem_singleton.mp hc]
      rw [Nat.isDigit_digitChar]
      exact decide_eq_true (Nat.mod_lt n (by omega))

/-- The digits stand for the number they are the last digits of. -/
theorem ofDigitChars_lastDigits (k n : ℕ) :
    Nat.ofDigitChars 10 (lastDigits k n) 0 = n % 10 ^ k := by
  induction k generalizing n with
  | zero => rw [Nat.pow_zero, Nat.mod_one]; rfl
  | succ k ih =>
    have hdigit : n % 10 < 10 := Nat.mod_lt n (by omega)
    rw [lastDigits, Nat.ofDigitChars_append, ih, Nat.ofDigitChars_cons_digitChar_of_lt_ten hdigit,
      Nat.ofDigitChars_nil, Nat.pow_succ', Nat.mod_mul]
    omega

/-! ## Reading -/

/-- The number with decimals at the start of a text, as `std::stringstream` reads it, and what is
behind it. -/
def readFixed (s : List Char) : Option (ℚ × List Char) :=
  match number s with
  | some ((neg, whole), '.' :: rest) =>
    let digits := rest.takeWhile Char.isDigit
    let value : ℚ := whole + Nat.ofDigitChars 10 digits 0 / 10 ^ digits.length
    some (if neg then -value else value, rest.dropWhile Char.isDigit)
  | some ((neg, whole), rest) => some (if neg then -whole else whole, rest)
  | none => none

/-- **What is written is read back.** -/
theorem readFixed_fixed (k n : ℕ) {rest : List Char} (hrest : NoDigit rest) :
    readFixed (fixed k n ++ rest) = some ((n : ℚ) / 10 ^ k, rest) := by
  have hpoint : NoDigit ('.' :: (lastDigits k n ++ rest)) := by
    intro c hc
    obtain rfl : '.' = c := Option.some.inj hc
    rfl
  have hnumber := number_decimal blank_nil (n / 10 ^ k) hpoint
  have hdigits : ∀ c ∈ lastDigits k n, c.isDigit = true := fun _ => isDigit_of_mem_lastDigits
  have hvalue : ((n / 10 ^ k : ℕ) : ℚ) + ((n % 10 ^ k : ℕ) : ℚ) / 10 ^ k = n / 10 ^ k := by
    have hpow : (10 : ℚ) ^ k ≠ 0 := by positivity
    have hsplit : ((10 ^ k * (n / 10 ^ k) + n % 10 ^ k : ℕ) : ℚ) = n := by rw [Nat.div_add_mod]
    rw [eq_div_iff hpow, add_mul, div_mul_cancel₀ _ hpow, ← hsplit]
    push_cast
    ring
  rw [List.nil_append] at hnumber
  rw [fixed, List.append_assoc, List.cons_append, readFixed, hnumber]
  simp only [takeWhile_digits hdigits hrest, dropWhile_digits hdigits hrest,
    ofDigitChars_lastDigits, length_lastDigits, hvalue, Bool.false_eq_true, ↓reduceIte]

end SysInfo.Lib.FixedPoint
