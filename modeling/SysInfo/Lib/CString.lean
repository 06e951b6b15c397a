import Mathlib.Data.List.Infix
import Mathlib.Data.List.TakeWhile
import Mathlib.Tactic.Common
import SysInfo.Lib.FirstOccurrence

/-!
# Searching and comparing C strings

`strrchr`, `strstr` and `strcasecmp`, on the characters in front of the terminating NUL.
-/

namespace SysInfo.Lib.CString

open FirstOccurrence (DecEquiv)

/-- The characters a `const char *` into the string reaches: those in front of the first NUL. -/
def cstr (s : String) : List Char := s.toList.takeWhile (·.toNat != 0)

theorem toNat_ne_zero_of_mem_cstr {s : String} {c : Char} (h : c ∈ cstr s) : c.toNat ≠ 0 := by
  have hc := List.mem_takeWhile_imp h
  simpa using hc

theorem cstr_ofList {s : List Char} (h : ∀ c ∈ s, c.toNat ≠ 0) : cstr (String.ofList s) = s := by
  rw [cstr, String.toList_ofList]
  exact List.takeWhile_eq_self_iff.mpr (fun c hc => by simpa using h c hc)

/-- The text from the last occurrence of `c` on, if there is one. -/
def strrchr (c : Char) : List Char → Option (List Char)
  | [] => none
  | x :: xs =>
    match strrchr c xs with
    | some t => some t
    | none => if x = c then some (x :: xs) else none

theorem strrchr_eq_none {c : Char} {s : List Char} (h : c ∉ s) : strrchr c s = none := by
  induction s with
  | nil => rfl
  | cons x s ih =>
    rw [List.mem_cons, not_or] at h
    rw [strrchr, ih h.2]
    exact if_neg (Ne.symm h.1)

/-- What stands in front of the last occurrence does not matter. -/
theorem strrchr_append {c : Char} {s : List Char} (h : c ∉ s) (p : List Char) :
    strrchr c (p ++ c :: s) = some (c :: s) := by
  induction p with
  | nil =>
    rw [List.nil_append, strrchr, strrchr_eq_none h]
    exact if_pos rfl
  | cons x p ih => rw [List.cons_append, strrchr, ih]

/-- Does `needle` occur in `s`? -/
def strstr (s needle : List Char) : Bool := decide (needle <:+: s)

/-- `tolower` in the C locale. -/
def tolower (c : Char) : Char :=
  if 65 ≤ c.toNat ∧ c.toNat ≤ 90 then Char.ofNat (c.toNat + 32) else c

/-- `strcasecmp(a,b) == 0`. -/
def strcaseeq (a b : String) : Bool :=
  decide ((cstr a).map tolower = (cstr b).map tolower)

/-- `strncasecmp(a,b,n) == 0`. -/
def strncaseeq (a b : String) (n : ℕ) : Bool :=
  decide (((cstr a).take n).map tolower = ((cstr b).take n).map tolower)

/-- Comparing without regard to case is an equivalence. -/
def ignoringCase : DecEquiv String where
  same := strcaseeq
  refl a := by simp [strcaseeq]
  symm h := by simpa [strcaseeq] using (of_decide_eq_true h).symm
  trans h h' := by simpa [strcaseeq] using (of_decide_eq_true h).trans (of_decide_eq_true h')

end SysInfo.Lib.CString
