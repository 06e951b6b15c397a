import Mathlib.Data.List.Basic
import SysInfo.Lib.CScan

/-!
# Numbers that say which base they are written in

`strtoull` with base 0. A prefix selects the base, `0x` and `0` as in C, and a numeral without one
is decimal. Of the numerals `printf` writes only that of 0 has such a prefix, and it is 0 in either
base (`strtoull_decimal`).
-/

namespace SysInfo.Lib.CScan

/-- The value of a digit, 36 for a character that is none in any base. -/
def digitValue (c : Char) : Nat :=
  if 48 ≤ c.toNat ∧ c.toNat ≤ 57 then c.toNat - 48
  else if 97 ≤ c.toNat ∧ c.toNat ≤ 122 then c.toNat - 87
  else if 65 ≤ c.toNat ∧ c.toNat ≤ 90 then c.toNat - 55
  else 36

/-- The number that digits of a base stand for. -/
def ofDigits (base : Nat) (ds : List Char) : Nat :=
  ds.foldl (fun n c => base * n + digitValue c) 0

/-- The base a prefix selects, and where the digits begin: behind `0x` if there is one there, at the
`0` otherwise. The prefix `0b` of the newest C libraries is not taken for one. -/
def radix : List Char → Nat × List Char
  | '0' :: x :: c :: s =>
    if (x = 'x' ∨ x = 'X') ∧ digitValue c < 16 then (16, c :: s) else (8, '0' :: x :: c :: s)
  | '0' :: s => (8, '0' :: s)
  | s => (10, s)

/-- `strtoull(s,&next,0)`: the value, and where `next` points. -/
def strtoull (s : List Char) : Nat × List Char :=
  let (neg, t) := sign (s.dropWhile isspace)
  let (base, u) := radix t
  let ds := u.takeWhile (digitValue · < base)
  if ds = [] then (0, s)
  else (strtoul (neg, ofDigits base ds), u.dropWhile (digitValue · < base))

/-! ## Digits -/

theorem digitValue_of_isDigit {c : Char} (h : c.isDigit = true) :
    digitValue c = c.toNat - '0'.toNat :=
  if_pos (toNat_of_isDigit h)

theorem digitValue_lt_ten_iff (c : Char) : digitValue c < 10 ↔ c.isDigit = true := by
  constructor
  · intro hlt
    have hc : 48 ≤ c.toNat ∧ c.toNat ≤ 57 := by grind [digitValue]
    simp only [Char.isDigit, Bool.and_eq_true, decide_eq_true_eq]
    exact ⟨UInt32.le_iff_toNat_le.mpr hc.1, UInt32.le_iff_toNat_le.mpr hc.2⟩
  · intro hd
    obtain ⟨-, hle⟩ := toNat_of_isDigit hd
    rw [digitValue_of_isDigit hd]
    show c.toNat - 48 < 10
    omega

theorem digitValue_lt_ten : (fun c => decide (digitValue c < 10)) = Char.isDigit := by
  funext c
  rw [Bool.eq_iff_iff, decide_eq_true_iff]
  exact digitValue_lt_ten_iff c

/-- On decimal digits the two ways to read a numeral agree. -/
theorem ofDigits_ten {ds : List Char} (hd : ∀ c ∈ ds, c.isDigit = true) :
    ofDigits 10 ds = Nat.ofDigitChars 10 ds 0 := by
  apply List.foldl_ext
  intro n c hc
  rw [digitValue_of_isDigit (hd c hc)]

/-! ## Prefixes -/

theorem radix_of_ne {d : Char} (h : d ≠ '0') (s : List Char) : radix (d :: s) = (10, d :: s) := by
  unfold radix
  split
  · next heq => exact absurd (List.cons.inj heq).1 h
  · next heq => exact absurd (List.cons.inj heq).1 h
  · rfl

/-- A `0` is octal when no `x` follows. -/
theorem radix_zero {rest : List Char} (hx : ∀ c ∈ rest.head?, c ≠ 'x' ∧ c ≠ 'X') :
    radix ('0' :: rest) = (8, '0' :: rest) := by
  match rest with
  | [] => rfl
  | [_] => rfl
  | x :: c :: s =>
    have hnot : ¬ ((x = 'x' ∨ x = 'X') ∧ digitValue c < 16) := by
      obtain ⟨hlower, hupper⟩ := hx x rfl
      intro hprefix
      exact hprefix.1.elim hlower hupper
    exact if_neg hnot

/-- Only the numeral of 0 starts with `0`. -/
theorem head_decimal {n : Nat} (hn : 0 < n) : (decimal n).head? ≠ some '0' := by
  induction n using Nat.strongRecOn with
  | _ n ih =>
    by_cases hlt : n < 10
    · have hdigit : decimal n = [n.digitChar] := Nat.toDigits_of_lt_base hlt
      rw [hdigit, List.head?_cons]
      intro hzero
      have hnat : n.digitChar.toNat = 48 + n := Nat.toNat_digitChar_of_lt_ten hlt
      rw [Option.some.inj hzero] at hnat
      have hchar : '0'.toNat = 48 := rfl
      omega
    · -- a longer numeral starts like the one of a tenth of the number
      have hle : 10 ≤ n := Nat.not_lt.mp hlt
      have hsplit : decimal n = decimal (n / 10) ++ [(n % 10).digitChar] :=
        Nat.toDigits_of_base_le (by omega) hle
      rw [hsplit, List.head?_append_of_ne_nil _ (decimal_ne_nil _)]
      exact ih (n / 10) (by omega) (by omega)

/-- **A numeral is read back as its number**, whatever blanks stand in front of it. -/
theorem strtoull_decimal {g : List Char} (hg : Blank g) {n : Nat} (hn : n < 2 ^ 64)
    {rest : List Char} (hr : NoDigit rest) (hx : ∀ c ∈ rest.head?, c ≠ 'x' ∧ c ≠ 'X') :
    strtoull (g ++ decimal n ++ rest) = (n, rest) := by
  have hvalue : strtoul (false, n) = n := if_neg (Nat.not_le.mpr hn)
  rcases Nat.eq_zero_or_pos n with rfl | hpos
  · have hzero : decimal 0 ++ rest = '0' :: rest := rfl
    have hdigit : decide (digitValue '0' < 8) = true := rfl
    -- what ends a decimal numeral ends an octal one, too
    have hstop : ∀ c ∈ rest.head?, decide (digitValue c < 8) = false := by
      intro c hc
      rw [decide_eq_false_iff_not]
      intro hlt
      have hten := (digitValue_lt_ten_iff c).mp (by omega)
      rw [hr c hc] at hten
      cases hten
    have htake : ('0' :: rest).takeWhile (digitValue · < 8) = ['0'] := by
      cases rest with
      | nil => rfl
      | cons c cs => simp [hdigit, hstop c rfl]
    have hdrop : ('0' :: rest).dropWhile (digitValue · < 8) = rest := by
      cases rest with
      | nil => rfl
      | cons c cs => simp [hdigit, hstop c rfl]
    rw [strtoull, sign_decimal hg, hzero]
    simp only [radix_zero hx, htake, hdrop]
    rfl
  · obtain ⟨d, ds, hd, -, -⟩ := exists_decimal_eq_cons n
    have hradix : radix (decimal n ++ rest) = (10, decimal n ++ rest) := by
      have hhead := head_decimal hpos
      rw [hd] at hhead ⊢
      apply radix_of_ne
      intro hzero
      exact hhead (congrArg some hzero)
    have hread : ofDigits 10 (decimal n) = n := by
      rw [ofDigits_ten (fun _ => isDigit_of_mem_decimal)]
      exact Nat.ofDigitChars_ten_toDigits
    rw [strtoull, sign_decimal hg]
    simp only [hradix, digitValue_lt_ten, takeWhile_decimal hr, dropWhile_decimal hr]
    rw [if_neg (decimal_ne_nil n), hread, hvalue]

end SysInfo.Lib.CScan
