import Mathlib.Data.UInt
import SysInfo.Lib.CScan

/-!
# Extracting numbers from an input stream

What `std::istream` does with `ignore` and with `>>` into an `unsigned long`, and what becomes of a
chain of extractions.

    row of numerals ──>> a >> b >> ... ──▶ values, then zeros

An extraction skips white space, ends of lines included, so that a chain that is longer than its row
goes on behind it. `extracted_row` says that it brings nothing back from there: the first thing that
is no number puts the stream into a state in which it stores nothing any more.
-/

namespace SysInfo.Lib

open CScan

/-- The characters that are left and the two error bits. -/
structure IStream where
  rest : List Char
  eof : Bool := false
  fail : Bool := false
  deriving DecidableEq, Repr

namespace IStream

/-- `good()`. -/
def good (s : IStream) : Bool := !s.eof && !s.fail

/-- `ignore(n)`. -/
def ignore (n : ℕ) (s : IStream) : IStream :=
  if s.good then { s with rest := s.rest.drop n, eof := decide (s.rest.length < n) }
  else { s with fail := true }

/-- The sentry of a formatted extraction: skips white space, and fails at the end of the text. -/
def sentry (s : IStream) : IStream :=
  if s.good then
    let rest := s.rest.dropWhile isspace
    { rest := rest, eof := decide (rest = []), fail := decide (rest = []) }
  else { s with fail := true }

/-- What `num_get` stores for the number at the start of the text, 0 when there is none, and the
stream behind it. -/
def number (s : IStream) : UInt64 × IStream :=
  let (neg, t) := sign s.rest
  let digits := t.takeWhile Char.isDigit
  let rest := t.dropWhile Char.isDigit
  let n := Nat.ofDigitChars 10 digits 0
  if digits = [] then (0, { rest := rest, eof := decide (rest = []), fail := true })
  else
    (.ofNat (strtoul (neg, n)),
      { rest := rest, eof := decide (rest = []), fail := decide (2 ^ 64 ≤ n) })

/-- `>>` into an `unsigned long` that holds `v`: what it holds afterwards, and the stream. -/
def extract (s : IStream) (v : UInt64) : UInt64 × IStream :=
  if s.sentry.good then s.sentry.number else (v, s.sentry)

/-- What `n` variables hold that were 0 before a chain of extractions. -/
def extracted : ℕ → IStream → List UInt64
  | 0, _ => []
  | n + 1, s => (s.extract 0).1 :: extracted n (s.extract 0).2

/-- Numerals one behind the other, with what they stand for. They may have blanks in front, and no
numeral runs into the next one. -/
inductive Row : List ℕ → List Char → Prop
  | nil : Row [] []
  | cons {gap digits row : List Char} {values : List ℕ} : Blank gap → digits ≠ [] →
      (∀ c ∈ digits, c.isDigit = true) → NoDigit row → Row values row →
      Row (Nat.ofDigitChars 10 digits 0 :: values) (gap ++ digits ++ row)

/-- What no number can be read from: behind the white space comes the end of the text, or a
character that starts no number. -/
def NoNumber (text : List Char) : Prop :=
  ∀ c ∈ (text.dropWhile isspace).head?, c.isDigit = false ∧ c ≠ '-' ∧ c ≠ '+'

/-- The numerals of C, laid out behind their gaps, are such a row. -/
theorem row_layout {ps : List (List Char × ℕ)} (hb : ∀ p ∈ ps, Blank p.1)
    (hne : ∀ p ∈ ps.tail, p.1 ≠ []) : Row (ps.map (·.2)) (layout ps) := by
  induction ps with
  | nil => exact Row.nil
  | cons p ps ih =>
    have hps : ∀ q ∈ ps, Blank q.1 := by
      intro q hq
      exact hb q (List.mem_cons_of_mem _ hq)
    have hrow := ih hps (fun q hq => hne q (List.mem_of_mem_tail hq))
    have hend : NoDigit (layout ps) := by
      rw [← List.append_nil (layout ps)]
      exact noDigit_layout hps hne nofun
    have hvalue : Nat.ofDigitChars 10 (decimal p.2) 0 = p.2 := Nat.ofDigitChars_ten_toDigits
    have hcons := Row.cons (hb p (by simp)) (decimal_ne_nil p.2)
      (fun _ => isDigit_of_mem_decimal) hend hrow
    rwa [hvalue, ← layout_cons] at hcons

variable {s : IStream} {text : List Char}

/-! ## One extraction -/

theorem sentry_of_not_good (h : s.good = false) : s.sentry = { s with fail := true } := by
  rw [sentry, h]
  rfl

theorem sentry_of_good (h : s.good = true) (hrest : s.rest.dropWhile isspace = text) :
    s.sentry = { rest := text, eof := decide (text = []), fail := decide (text = []) } := by
  rw [sentry, h, hrest]
  rfl

/-- A stream that is not good stores nothing and stays as it is, -/
theorem extract_of_not_good (h : s.good = false) (v : UInt64) :
    s.extract v = (v, { s with fail := true }) := by
  have hfail : s.sentry.good = false := by
    rw [sentry_of_not_good h]
    simp [good]
  rw [extract, hfail, sentry_of_not_good h]
  rfl

/-- and one with no number in front stores 0 and is not good afterwards. -/
theorem extract_of_noNumber (h : NoNumber s.rest) :
    (s.extract 0).1 = 0 ∧ (s.extract 0).2.good = false := by
  cases hgood : s.good with
  | false =>
    rw [extract_of_not_good hgood]
    exact ⟨rfl, by simp [good]⟩
  | true =>
    unfold NoNumber at h
    cases hrest : s.rest.dropWhile isspace with
    | nil =>
      rw [extract, sentry_of_good hgood hrest]
      exact ⟨rfl, rfl⟩
    | cons c cs =>
      rw [hrest] at h
      obtain ⟨hdigit, hminus, hplus⟩ := h c rfl
      have hsign : sign (c :: cs) = (false, c :: cs) := by simp [sign, hminus, hplus]
      rw [extract, sentry_of_good hgood hrest]
      simp [good, number, hsign, hdigit]

/-- **A numeral is stored**, whatever blanks stand in front of it, and the stream is right behind
it. -/
theorem extract_numeral {gap digits rest : List Char} (hgood : s.good = true) (hgap : Blank gap)
    (hne : digits ≠ []) (hdigits : ∀ c ∈ digits, c.isDigit = true) (hrest : NoDigit rest)
    (hlt : Nat.ofDigitChars 10 digits 0 < 2 ^ 64) (hs : s.rest = gap ++ digits ++ rest)
    (v : UInt64) :
    s.extract v =
      (.ofNat (Nat.ofDigitChars 10 digits 0), { rest := rest, eof := decide (rest = []) }) := by
  have hskip : s.rest.dropWhile isspace = digits ++ rest := by
    rw [hs]
    exact skip_numeral hgap hne hdigits rest
  have hleft : digits ++ rest ≠ [] := by simp [hne]
  have hnumber : s.sentry = { rest := digits ++ rest } := by
    rw [sentry_of_good hgood hskip, decide_eq_false hleft]
  rw [extract, hnumber]
  show number _ = _
  simp only [number, sign_digits hne hdigits, takeWhile_digits hdigits hrest,
    dropWhile_digits hdigits hrest]
  rw [if_neg hne, strtoul, if_neg (Nat.not_le.mpr hlt), decide_eq_false (Nat.not_le.mpr hlt)]
  rfl

/-! ## A chain of extractions -/

theorem extracted_of_not_good (h : s.good = false) (n : ℕ) :
    extracted n s = List.replicate n 0 := by
  induction n generalizing s with
  | zero => rfl
  | succ n ih =>
    rw [extracted, extract_of_not_good h, List.replicate_succ, ih (by simp [good])]

theorem extracted_of_noNumber (h : NoNumber s.rest) (n : ℕ) :
    extracted n s = List.replicate n 0 := by
  cases n with
  | zero => rfl
  | succ n =>
    obtain ⟨hzero, hgood⟩ := extract_of_noNumber h
    rw [extracted, hzero, extracted_of_not_good hgood, List.replicate_succ]

/-- **A chain of extractions stores the row and then zeros.** Nothing behind the row counts. -/
theorem extracted_row {values : List ℕ} {row tail : List Char} (h : Row values row)
    (hlt : ∀ v ∈ values, v < 2 ^ 64) (hdigit : NoDigit tail) (htail : NoNumber tail)
    (hgood : values ≠ [] → s.good = true) (hs : s.rest = row ++ tail) (n : ℕ) :
    extracted n s = (values.take n).map .ofNat ++ List.replicate (n - values.length) 0 := by
  induction h generalizing s n with
  | nil =>
    rw [List.nil_append] at hs
    rw [extracted_of_noNumber (hs ▸ htail)]
    simp
  | @cons gap digits row values hgap hne hdigits hrow hvalues ih =>
    cases n with
    | zero => simp [extracted]
    | succ n =>
      rw [List.append_assoc] at hs
      have hnext : NoDigit (row ++ tail) := by
        intro c hc
        cases row with
        | nil => exact hdigit c hc
        | cons a row => exact hrow c hc
      -- the numeral leaves a good stream behind as long as another one follows
      have hmore : values ≠ [] → row ++ tail ≠ [] := by
        intro hmore hnil
        cases hvalues with
        | nil => exact hmore rfl
        | cons _ hne => simp [hne] at hnil
      rw [extracted, extract_numeral (hgood (by simp)) hgap hne hdigits hnext (hlt _ (by simp)) hs]
      rw [ih (fun v hv => hlt v (List.mem_cons_of_mem _ hv)) ?_ rfl n]
      · simp
      · intro hvalues
        simp [good, hmore hvalues]

/-! ## A chain over any text -/

/-- The first `n` numbers of a text, each with its sign, up to where there is none. -/
def numerals : ℕ → List Char → List (Bool × ℕ)
  | 0, _ => []
  | n + 1, text =>
    match CScan.number text with
    | none => []
    | some (x, rest) => x :: numerals n rest

/-- The front of a list, through the first element with the property. -/
def through {α : Type*} (p : α → Bool) : List α → List α
  | [] => []
  | a :: l => if p a then [a] else a :: through p l

/-- The number does not fit 64 bits. -/
def overflows (x : Bool × ℕ) : Bool := decide (2 ^ 64 ≤ x.2)

/-- Without a number in front an extraction stores 0, and the stream is not good afterwards; -/
theorem extract_of_number_none (hnumber : CScan.number s.rest = none) :
    (s.extract 0).1 = 0 ∧ (s.extract 0).2.good = false := by
  cases hgood : s.good with
  | false =>
    rw [extract_of_not_good hgood]
    exact ⟨rfl, by simp [good]⟩
  | true =>
    cases hrest : s.rest.dropWhile isspace with
    | nil =>
      rw [extract, sentry_of_good hgood hrest]
      exact ⟨rfl, rfl⟩
    | cons c cs =>
      have hdigits : (sign (c :: cs)).2.takeWhile Char.isDigit = [] := by
        rw [CScan.number, hrest] at hnumber
        by_contra hne
        simp [hne] at hnumber
      rw [extract, sentry_of_good hgood hrest]
      simp [good, number, hdigits]

/-- with one it stores the number, or the largest one there is, and fails in that case. -/
theorem extract_of_number_some (hgood : s.good = true) {x : Bool × ℕ} {rest : List Char}
    (hnumber : CScan.number s.rest = some (x, rest)) :
    s.extract 0 =
      (.ofNat (strtoul x), { rest := rest, eof := decide (rest = []), fail := overflows x }) := by
  rw [CScan.number] at hnumber
  dsimp only at hnumber
  split at hnumber
  · cases hnumber
  · next hne =>
    obtain ⟨rfl, rfl⟩ := Prod.mk.inj (Option.some.inj hnumber)
    have hleft : s.rest.dropWhile isspace ≠ [] := by
      intro hnil
      rw [hnil] at hne
      exact hne rfl
    rw [extract, sentry_of_good hgood rfl, decide_eq_false hleft]
    simp [good, number, hne, overflows]

/-- **A chain of extractions over any text** stores its numbers in their order, through the first
one that does not fit, and zeros from there on. -/
theorem extracted_eq (hs : s.good = true ∨ s.rest = []) (n : ℕ) :
    extracted n s =
      (through overflows (numerals n s.rest)).map (fun x => .ofNat (strtoul x)) ++
        List.replicate (n - (through overflows (numerals n s.rest)).length) 0 := by
  induction n generalizing s with
  | zero => rfl
  | succ n ih =>
    cases hnumber : CScan.number s.rest with
    | none =>
      obtain ⟨hzero, hbad⟩ := extract_of_number_none hnumber
      rw [extracted, hzero, extracted_of_not_good hbad, numerals, hnumber]
      rfl
    | some p =>
      obtain ⟨x, rest⟩ := p
      have hgood : s.good = true := by
        apply hs.resolve_right
        intro hnil
        rw [hnil] at hnumber
        cases hnumber
      rw [extracted, extract_of_number_some hgood hnumber, numerals, hnumber]
      dsimp only [through]
      cases hover : overflows x with
      | true =>
        -- the largest value is stored, but the stream has failed for the next one
        rw [extracted_of_not_good (by simp [good])]
        rfl
      | false =>
        have hnext : IStream.good { rest := rest, eof := decide (rest = []) } = true ∨
            rest = [] := by
          by_cases hrest : rest = []
          · exact Or.inr hrest
          · exact Or.inl (by simp [good, hrest])
        rw [ih hnext]
        simp

end IStream

end SysInfo.Lib
