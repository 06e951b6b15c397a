import Mathlib.Algebra.Order.Field.Basic
import Mathlib.Data.UInt
import SysInfo.Host
import SysInfo.Lib.BaseZero
import SysInfo.Lib.ExactFloat

/-!
# `System::MemoryUsage`

A refresh reads two values of `/proc/meminfo`, scales both to bytes, and stores what part of the
memory is not available.

    text of a value ──strtoull, unit──▶ bytes
    MemTotal, MemAvailable ──▶ (total - available) / total

Both values are scaled within 64 bits, and as long as neither is cut there the unit they share does
not show in the quotient (`unavailable_fraction`).
-/

namespace SysInfo.Agent

open Lib (ExactFloat)
open Lib.CScan Lib.CString

/-- `System::MemoryUsage`. -/
structure MemoryUsage where
  value : ExactFloat := .fin 0
  deriving DecidableEq

namespace MemoryUsage

/-- The loop of `get_scaled`: the first `k` or `M` behind the number scales it. -/
def scale (value : UInt64) : List Char → UInt64
  | [] => value
  | c :: next =>
    if c = 'k' then value * 1024
    else if c = 'M' then value * (1024 * 1024)
    else scale value next

/-- `get_scaled(v)`. -/
def getScaled (v : String) : ExactFloat :=
  let (value, next) := strtoull (cstr v)
  .fin (scale (.ofNat value) next).toNat

/-- `refresh()`. `meminfo` is the file as `Config::File` reads it: what stands behind the colon of a
key, or what is thrown on the way. -/
def refresh (meminfo : String → Except Exception String) : EStateM Exception MemoryUsage Unit := do
  let total := getScaled (← ofExcept (meminfo "MemTotal"))
  let user := total - getScaled (← ofExcept (meminfo "MemAvailable"))
  let usage := user / total
  set ({ value := usage } : MemoryUsage)

/-! ## The values of `/proc/meminfo` -/

/-- The units `get_scaled` tells apart. -/
inductive MemUnit where
  | none
  | kB
  | MB
  deriving DecidableEq, Repr

/-- How the unit is written, -/
def MemUnit.text : MemUnit → List Char
  | .none => []
  | .kB => ['k', 'B']
  | .MB => ['M', 'B']

/-- and what it stands for. -/
def MemUnit.factor : MemUnit → ℕ
  | .none => 1
  | .kB => 1024
  | .MB => 1024 * 1024

theorem MemUnit.factor_pos (unit : MemUnit) : 0 < unit.factor := by
  cases unit <;> decide

/-- A number with its unit, and the white space around them. -/
structure Amount where
  n : ℕ
  unit : MemUnit
  lead : List Char
  gap : List Char
  trail : List Char
  blank_lead : Blank lead
  blank_gap : Blank gap
  blank_trail : Blank trail

namespace Amount

/-- What stands behind the number. -/
def suffix (v : Amount) : List Char := v.gap ++ (v.unit.text ++ v.trail)

/-- The text of the value. -/
def text (v : Amount) : String := String.ofList (v.lead ++ decimal v.n ++ v.suffix)

/-- The number of bytes. -/
def bytes (v : Amount) : ℕ := v.n * v.unit.factor

theorem scale_blank {g : List Char} (hg : Blank g) (value : UInt64) (s : List Char) :
    scale value (g ++ s) = scale value s := by
  induction g with
  | nil => rfl
  | cons c g ih =>
    have hc : isspace c = true := hg c (by simp)
    have hk : c ≠ 'k' := by
      intro hk
      rw [hk] at hc
      cases hc
    have hM : c ≠ 'M' := by
      intro hM
      rw [hM] at hc
      cases hc
    rw [List.cons_append, scale, if_neg hk, if_neg hM]
    exact ih (fun c hc => hg c (List.mem_cons_of_mem _ hc))

/-- The loop finds the unit, if there is one. -/
theorem scale_suffix (v : Amount) : scale (.ofNat v.n) v.suffix = .ofNat v.bytes := by
  rw [suffix, scale_blank v.blank_gap, bytes, UInt64.ofNat_mul]
  cases v.unit with
  | none =>
    have hend := scale_blank v.blank_trail (.ofNat v.n) []
    rw [List.append_nil] at hend
    show scale _ v.trail = _ * 1
    rw [hend, UInt64.mul_one]
    rfl
  | kB => rfl
  | MB => rfl

/-- What the suffix starts with does not go on with the number. -/
theorem head_suffix (v : Amount) {c : Char} (hc : c ∈ v.suffix.head?) :
    c.isDigit = false ∧ c ≠ 'x' ∧ c ≠ 'X' := by
  have hspace : isspace c = true → c.isDigit = false ∧ c ≠ 'x' ∧ c ≠ 'X' := by
    intro hsp
    refine ⟨isDigit_eq_false_of_isspace hsp, ?_, ?_⟩
    · intro hx
      rw [hx] at hsp
      cases hsp
    · intro hX
      rw [hX] at hsp
      cases hsp
  rw [suffix] at hc
  cases hgap : v.gap with
  | cons b g =>
    rw [hgap] at hc
    obtain rfl : b = c := Option.some.inj hc
    apply hspace
    apply v.blank_gap
    simp [hgap]
  | nil =>
    rw [hgap, List.nil_append] at hc
    cases hunit : v.unit with
    | none =>
      rw [hunit] at hc
      exact hspace (v.blank_trail c (List.mem_of_mem_head? hc))
    | kB =>
      rw [hunit] at hc
      obtain rfl : 'k' = c := Option.some.inj hc
      decide
    | MB =>
      rw [hunit] at hc
      obtain rfl : 'M' = c := Option.some.inj hc
      decide

/-- The whole text is there for `c_str()`. -/
theorem cstr_text (v : Amount) : cstr v.text = v.lead ++ decimal v.n ++ v.suffix := by
  have hunit : ∀ c ∈ v.unit.text, c.toNat ≠ 0 := by
    cases v.unit <;> simp [MemUnit.text]
  apply cstr_ofList
  intro c hc
  simp only [suffix, List.mem_append] at hc
  rcases hc with (hc | hc) | hc | hc | hc
  · exact toNat_ne_zero_of_isspace (v.blank_lead c hc)
  · exact toNat_ne_zero_of_isDigit (isDigit_of_mem_decimal hc)
  · exact toNat_ne_zero_of_isspace (v.blank_gap c hc)
  · exact hunit c hc
  · exact toNat_ne_zero_of_isspace (v.blank_trail c hc)

/-- **A value is scaled to bytes** as long as they fit 64 bits. -/
theorem getScaled_text (v : Amount) (hlt : v.bytes < 2 ^ 64) : getScaled v.text = .fin v.bytes := by
  have hle : v.n ≤ v.bytes := Nat.le_mul_of_pos_right _ v.unit.factor_pos
  have hn : v.n < 2 ^ 64 := Nat.lt_of_le_of_lt hle hlt
  have hread : strtoull (cstr v.text) = (v.n, v.suffix) := by
    rw [cstr_text]
    exact strtoull_decimal v.blank_lead hn (fun c hc => (v.head_suffix hc).1)
      (fun c hc => (v.head_suffix hc).2)
  have hvalue : (UInt64.ofNat v.bytes).toNat = v.bytes := UInt64.toNat_ofNat_of_lt' hlt
  unfold getScaled
  rw [hread]
  show ExactFloat.fin (scale (.ofNat v.n) v.suffix).toNat = _
  rw [scale_suffix, hvalue]

end Amount

/-! ## The fraction -/

/-- The part of `total` that is not `available`. -/
def unavailable (total available : ℕ) : ℚ := (total - available) / total

/-- It falls as more becomes available. -/
theorem antitone_unavailable (total : ℕ) : Antitone (unavailable total) := by
  intro m n hmn
  have hcast : (m : ℚ) ≤ n := by exact_mod_cast hmn
  apply div_le_div_of_nonneg_right _ (Nat.cast_nonneg total)
  linarith

theorem unavailable_mem_unit {total available : ℕ} (hpos : 0 < total) (hle : available ≤ total) :
    0 ≤ unavailable total available ∧ unavailable total available ≤ 1 := by
  have htotal : (0 : ℚ) < total := by exact_mod_cast hpos
  have hcast : (available : ℚ) ≤ total := by exact_mod_cast hle
  have hnonneg : (0 : ℚ) ≤ available := Nat.cast_nonneg _
  refine ⟨?_, ?_⟩
  · apply div_nonneg _ htotal.le
    linarith
  · rw [unavailable, div_le_one htotal]
    linarith

/-- A unit that both have cancels. -/
theorem unavailable_mul (total available : ℕ) {factor : ℕ} (hpos : 0 < factor) :
    unavailable (total * factor) (available * factor) = unavailable total available := by
  have hne : (factor : ℚ) ≠ 0 := by exact_mod_cast hpos.ne'
  rw [unavailable, Nat.cast_mul, Nat.cast_mul, ← sub_mul, mul_div_mul_right _ _ hne]
  rfl

/-- A refresh that gets both values stores their quotient. -/
theorem refresh_run {meminfo : String → Except Exception String} {total available : String}
    (htotal : meminfo "MemTotal" = .ok total) (havailable : meminfo "MemAvailable" = .ok available)
    (a : MemoryUsage) :
    (refresh meminfo).run a =
      .ok () { value := (getScaled total - getScaled available) / getScaled total } := by
  unfold refresh
  rw [htotal, havailable]
  rfl

/-- What a refresh is for. -/
structure MeasuresUsage (meminfo : String → Except Exception String) (total available : Amount)
    (a : MemoryUsage) : Prop where
  /-- Neither value is cut, -/
  total_scaled : getScaled total.text = .fin (total.n * total.unit.factor : ℕ)
  available_scaled : getScaled available.text = .fin (available.n * total.unit.factor : ℕ)
  /-- and what is stored is the quotient, in which the unit does not show, -/
  stored : (refresh meminfo).run a =
    .ok () { a with value := .fin (unavailable total.n available.n) }
  /-- a number from 0 to 1 -/
  mem_unit : 0 ≤ unavailable total.n available.n ∧ unavailable total.n available.n ≤ 1
  /-- that falls as more memory becomes available. -/
  antitone : Antitone (unavailable total.n)

/-- **Memory usage is the part of the memory that is not available**, whatever unit the two values
share, as long as the bytes of the total fit 64 bits: below 2 ^ 54 kilobytes. -/
theorem unavailable_fraction (meminfo : String → Except Exception String) (total available : Amount)
    (htotal : meminfo "MemTotal" = .ok total.text)
    (havailable : meminfo "MemAvailable" = .ok available.text)
    (hunit : available.unit = total.unit) (hpos : 0 < total.n) (hle : available.n ≤ total.n)
    (hlt : total.n * total.unit.factor < 2 ^ 64) (a : MemoryUsage) :
    MeasuresUsage meminfo total available a := by
  have hfactor : 0 < total.unit.factor := total.unit.factor_pos
  have hbytes : available.bytes = available.n * total.unit.factor := by
    rw [Amount.bytes, hunit]
  have hltAvailable : available.bytes < 2 ^ 64 := by
    rw [hbytes]
    exact Nat.lt_of_le_of_lt (Nat.mul_le_mul_right _ hle) hlt
  have hscaledTotal : getScaled total.text = .fin (total.n * total.unit.factor : ℕ) :=
    total.getScaled_text hlt
  have hscaledAvailable :
      getScaled available.text = .fin (available.n * total.unit.factor : ℕ) := by
    rw [← hbytes]
    exact available.getScaled_text hltAvailable
  have hne : ((total.n * total.unit.factor : ℕ) : ℚ) ≠ 0 := by
    exact_mod_cast (Nat.mul_pos hpos hfactor).ne'
  have hstored : (refresh meminfo).run a =
      .ok () { a with value := .fin (unavailable total.n available.n) } := by
    rw [refresh_run htotal havailable, hscaledTotal, hscaledAvailable, ExactFloat.fin_sub_fin,
      ExactFloat.fin_div_fin hne, ← unavailable_mul total.n available.n hfactor]
    rfl
  exact ⟨hscaledTotal, hscaledAvailable, hstored, unavailable_mem_unit hpos hle,
    antitone_unavailable total.n⟩

/-- A `/proc/meminfo` of a machine with 16 GB, half of it in use. -/
def sixteenGB : Amount where
  n := 16306012
  unit := .kB
  lead := List.replicate 7 ' '
  gap := List.replicate 1 ' '
  trail := []
  blank_lead := blank_replicate 7
  blank_gap := blank_replicate 1
  blank_trail := blank_nil

def halfOfIt : Amount := { sixteenGB with n := 8153006 }

theorem unavailable_fraction_half :
    MeasuresUsage
      (fun key => .ok (if key = "MemTotal" then sixteenGB.text else halfOfIt.text))
      sixteenGB halfOfIt {} :=
  unavailable_fraction _ sixteenGB halfOfIt rfl rfl rfl (by decide) (by decide) (by decide) _

end MemoryUsage

end SysInfo.Agent
