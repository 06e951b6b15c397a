import Mathlib.Algebra.Group.Int.Defs
import Mathlib.Algebra.Group.Nat.Defs
import Mathlib.Data.Int.Order.Basic
import Mathlib.Data.List.TakeWhile
import Mathlib.Tactic.Common

/-!
# Reading and printing unsigned numbers the way C does

The part of the C library that text-based counters go through: `isspace`, the number that
`strtoul` and the conversions of `sscanf` recognise, `atoi`, and the decimal numerals `printf`
writes. Texts are lists of characters without the terminating NUL.

    numbers (List (gap × Nat)) ──layout──▶ text ──sscanf──▶ values

`sscanf_layout` says that the composite is the identity up to the width of each conversion,
whatever blanks the gaps are made of, as long as two numerals never touch.
-/

namespace SysInfo.Lib.CScan

/-- `isspace` in the C locale: the blank and the five control characters from tab to return. -/
def isspace (c : Char) : Bool :=
  c.toNat == 32 || (decide (9 ≤ c.toNat) && decide (c.toNat ≤ 13))

/-- A (possibly empty) run of white space. -/
def Blank (g : List Char) : Prop := ∀ c ∈ g, isspace c = true

/-- What a numeral stops at: the end of the text or a character that is no digit. -/
def NoDigit (s : List Char) : Prop := ∀ c ∈ s.head?, c.isDigit = false

instance (g : List Char) : Decidable (Blank g) := inferInstanceAs (Decidable (∀ c ∈ g, _))

/-! ## Reading -/

/-- The optional sign in front of a number: is it negative, and what follows. -/
def sign : List Char → Bool × List Char
  | '-' :: s => (true, s)
  | '+' :: s => (false, s)
  | s => (false, s)

/-- The base 10 number at the start of a text, after any white space: its sign, its magnitude and
the text behind it. `none` when there is no digit, the matching failure of `sscanf`. -/
def number (s : List Char) : Option ((Bool × Nat) × List Char) :=
  let (neg, t) := sign (s.dropWhile isspace)
  if t.takeWhile Char.isDigit = [] then none
  else some ((neg, Nat.ofDigitChars 10 (t.takeWhile Char.isDigit) 0), t.dropWhile Char.isDigit)

/-- `strtoul` on a 64 bit host: out of range gives `ULONG_MAX`, a minus sign negates. -/
def strtoul : Bool × Nat → Nat
  | (neg, n) => if 2 ^ 64 ≤ n then 2 ^ 64 - 1 else if neg then (2 ^ 64 - n) % 2 ^ 64 else n

/-- `strtol` on a 64 bit host: out of range stops at the nearer end of `long`. -/
def strtol : Bool × Nat → Int
  | (neg, n) => if neg then max (-2 ^ 63) (-n) else min (2 ^ 63 - 1) n

/-- `atoi`: `strtol` cut to a 32 bit `int`, 0 when there is no number. -/
def atoi (s : List Char) : Int :=
  match number s with
  | none => 0
  | some (x, _) => (strtol x).bmod (2 ^ 32)

/-- The conversions `%u` and `%lu`. -/
inductive Conv where
  | u
  | lu
  deriving DecidableEq, Repr

/-- The width of the integer a conversion stores into. -/
def Conv.width : Conv → Nat
  | .u => 32
  | .lu => 64

/-- What a conversion stores for a number: the result of `strtoul`, cut to the width. -/
def Conv.value (c : Conv) (x : Bool × Nat) : Nat := strtoul x % 2 ^ c.width

/-- `sscanf` for a format of unsigned conversions separated by blanks: the values stored, in order,
up to the first conversion that fails. The length of the result is what `sscanf` returns. -/
def sscanf : List Conv → List Char → List Nat
  | [], _ => []
  | c :: cs, s =>
    match number s with
    | none => []
    | some (x, rest) => c.value x :: sscanf cs rest

/-! ## Writing -/

/-- The decimal numeral `%u` writes. -/
def decimal (n : Nat) : List Char := Nat.toDigits 10 n

/-- The numeral right-aligned in at least `w` columns, `%<w>u`. -/
def padded (w n : Nat) : List Char := (decimal n).leftpad w ' '

/-- Numerals laid out one after the other, each behind its gap. -/
def layout (ps : List (List Char × Nat)) : List Char :=
  ps.flatMap (fun p => p.1 ++ decimal p.2)

/-- Numerals right-aligned in `w` columns with one space between them. -/
def spaced (w : Nat) (ns : List Nat) : List Char := [' '].intercalate (ns.map (padded w))

/-- What `w` columns leave in front of a numeral. -/
def margin (w n : Nat) : List Char := List.replicate (w - (decimal n).length) ' '

/-- The gaps of such columns: the margin, behind the separating space except at the start, where
the gap is `g`. -/
def columns (w : Nat) (g : List Char) (n : Nat) (ns : List Nat) : List (List Char × Nat) :=
  (g, n) :: ns.map (fun m => (' ' :: margin w m, m))

/-! ### Characters -/

theorem isspace_space : isspace ' ' = true := by decide

theorem toNat_of_isDigit {c : Char} (h : c.isDigit = true) : 48 ≤ c.toNat ∧ c.toNat ≤ 57 := by
  simp only [Char.isDigit, Bool.and_eq_true, decide_eq_true_eq] at h
  exact ⟨UInt32.le_iff_toNat_le.mp h.1, UInt32.le_iff_toNat_le.mp h.2⟩

theorem isspace_eq_false_of_isDigit {c : Char} (h : c.isDigit = true) : isspace c = false := by
  have hc := toNat_of_isDigit h
  grind [isspace]

theorem isDigit_eq_false_of_isspace {c : Char} (h : isspace c = true) : c.isDigit = false := by
  cases hd : c.isDigit with
  | false => rfl
  | true => rw [isspace_eq_false_of_isDigit hd] at h; cases h

/-- Neither white space nor a digit ends a C string. -/
theorem toNat_ne_zero_of_isspace {c : Char} (h : isspace c = true) : c.toNat ≠ 0 := by
  grind [isspace]

theorem toNat_ne_zero_of_isDigit {c : Char} (h : c.isDigit = true) : c.toNat ≠ 0 := by
  have hc := toNat_of_isDigit h
  omega

theorem blank_nil : Blank [] := by simp [Blank]

theorem blank_replicate (n : Nat) : Blank (List.replicate n ' ') := by
  intro c hc
  rw [(List.mem_replicate.mp hc).2]
  exact isspace_space

theorem Blank.append {g h : List Char} (hg : Blank g) (hh : Blank h) : Blank (g ++ h) := by
  intro c hc
  rcases List.mem_append.mp hc with hc | hc
  · exact hg c hc
  · exact hh c hc

theorem Blank.noDigit {g : List Char} (hg : Blank g) : NoDigit g := by
  intro c hc
  apply isDigit_eq_false_of_isspace
  exact hg c (List.mem_of_mem_head? hc)

/-- A gap that is not empty keeps whatever follows away from a numeral. -/
theorem Blank.noDigit_append {g : List Char} (hg : Blank g) (hne : g ≠ []) (s : List Char) :
    NoDigit (g ++ s) := by
  cases g with
  | nil => exact absurd rfl hne
  | cons a g =>
    intro c hc
    apply hg.noDigit
    simpa using hc

/-! ### The numeral of a number -/

theorem decimal_ne_nil (n : Nat) : decimal n ≠ [] := Nat.toDigits_ne_nil

theorem isDigit_of_mem_decimal {n : Nat} {c : Char} (h : c ∈ decimal n) : c.isDigit = true :=
  Nat.isDigit_of_mem_toDigits (by omega) (by omega) h

theorem isspace_of_mem_decimal {n : Nat} {c : Char} (h : c ∈ decimal n) : isspace c = false :=
  isspace_eq_false_of_isDigit (isDigit_of_mem_decimal h)

/-- The first character of a numeral, the only one that decides where a scan stops. -/
theorem exists_decimal_eq_cons (n : Nat) :
    ∃ d ds, decimal n = d :: ds ∧ d.isDigit = true ∧ isspace d = false := by
  cases hd : decimal n with
  | nil => exact absurd hd (decimal_ne_nil n)
  | cons d ds =>
    have hmem : d ∈ decimal n := by rw [hd]; exact List.mem_cons_self
    exact ⟨d, ds, rfl, isDigit_of_mem_decimal hmem, isspace_of_mem_decimal hmem⟩

theorem padded_eq (w n : Nat) : padded w n = margin w n ++ decimal n := rfl

theorem blank_margin (w n : Nat) : Blank (margin w n) := blank_replicate _

theorem length_decimal_lt_iff {n w : Nat} (hw : 1 < w) :
    (decimal n).length < w ↔ n < 10 ^ (w - 1) := by
  have h := Nat.length_toDigits_le_iff (b := 10) (n := n) (k := w - 1) (by omega) (by omega)
  rw [← h]
  show (Nat.toDigits 10 n).length < w ↔ _
  omega

/-! ### Reading back what was written -/

theorem sign_digit {d : Char} (hd : d.isDigit = true) (s : List Char) :
    sign (d :: s) = (false, d :: s) := by
  have hm : d ≠ '-' := by rintro rfl; exact absurd hd (by decide)
  have hp : d ≠ '+' := by rintro rfl; exact absurd hd (by decide)
  simp [sign, hm, hp]

/-- The blanks in front of a numeral are skipped, and nothing of the numeral. -/
theorem skip_numeral {g : List Char} (hg : Blank g) {digits : List Char} (hne : digits ≠ [])
    (hd : ∀ c ∈ digits, c.isDigit = true) (rest : List Char) :
    (g ++ digits ++ rest).dropWhile isspace = digits ++ rest := by
  obtain ⟨d, ds, rfl⟩ := List.exists_cons_of_ne_nil hne
  have hdigit : d.isDigit = true := hd d (by simp)
  rw [List.append_assoc, List.dropWhile_append_of_pos hg]
  simp [isspace_eq_false_of_isDigit hdigit]

/-- A numeral has no sign in front, -/
theorem sign_digits {digits : List Char} (hne : digits ≠ []) (hd : ∀ c ∈ digits, c.isDigit = true)
    (rest : List Char) : sign (digits ++ rest) = (false, digits ++ rest) := by
  obtain ⟨d, ds, rfl⟩ := List.exists_cons_of_ne_nil hne
  exact sign_digit (hd d (by simp)) _

/-- whatever blanks it is behind. -/
theorem sign_decimal {g : List Char} (hg : Blank g) (n : Nat) (rest : List Char) :
    sign ((g ++ decimal n ++ rest).dropWhile isspace) = (false, decimal n ++ rest) := by
  rw [skip_numeral hg (decimal_ne_nil n) (fun _ => isDigit_of_mem_decimal)]
  exact sign_digits (decimal_ne_nil n) (fun _ => isDigit_of_mem_decimal) rest

theorem takeWhile_digits {digits rest : List Char} (hd : ∀ c ∈ digits, c.isDigit = true)
    (hr : NoDigit rest) : (digits ++ rest).takeWhile Char.isDigit = digits := by
  rw [List.takeWhile_append_of_pos hd]
  cases rest with
  | nil => simp
  | cons c cs => simp [hr c (by simp)]

theorem dropWhile_digits {digits rest : List Char} (hd : ∀ c ∈ digits, c.isDigit = true)
    (hr : NoDigit rest) : (digits ++ rest).dropWhile Char.isDigit = rest := by
  rw [List.dropWhile_append_of_pos hd]
  cases rest with
  | nil => simp
  | cons c cs => simp [hr c (by simp)]

theorem takeWhile_decimal {n : Nat} {rest : List Char} (hr : NoDigit rest) :
    (decimal n ++ rest).takeWhile Char.isDigit = decimal n :=
  takeWhile_digits (fun _ => isDigit_of_mem_decimal) hr

theorem dropWhile_decimal {n : Nat} {rest : List Char} (hr : NoDigit rest) :
    (decimal n ++ rest).dropWhile Char.isDigit = rest :=
  dropWhile_digits (fun _ => isDigit_of_mem_decimal) hr

/-- **A numeral is read back as its number**, whatever blanks stand in front of it. -/
theorem number_decimal {g : List Char} (hg : Blank g) (n : Nat) {rest : List Char}
    (hr : NoDigit rest) : number (g ++ decimal n ++ rest) = some ((false, n), rest) := by
  simp only [number, sign_decimal hg, takeWhile_decimal hr, dropWhile_decimal hr, decimal_ne_nil,
    ↓reduceIte]
  rw [decimal, Nat.ofDigitChars_ten_toDigits]

theorem atoi_decimal {g : List Char} (hg : Blank g) {n : Nat} (hn : n < 2 ^ 31)
    {rest : List Char} (hr : NoDigit rest) : atoi (g ++ decimal n ++ rest) = n := by
  simp only [atoi, number_decimal hg n hr, strtol, Bool.false_eq_true, ↓reduceIte]
  rw [min_eq_right (by omega)]
  apply Int.bmod_eq_of_le <;> omega

/-- `atoi` looks at one word, and not at what stands behind it. -/
theorem atoi_append {w t : List Char} (hne : w ≠ []) (hw : ∀ c ∈ w, isspace c = false)
    (ht : NoDigit t) : atoi (w ++ t) = atoi w := by
  obtain ⟨c, cs, rfl⟩ := List.exists_cons_of_ne_nil hne
  have hc : isspace c = false := hw c (by simp)
  have hsign : sign (c :: (cs ++ t)) = ((sign (c :: cs)).1, (sign (c :: cs)).2 ++ t) := by
    by_cases hminus : c = '-'
    · subst hminus
      rfl
    · by_cases hplus : c = '+'
      · subst hplus
        rfl
      · simp [sign, hminus, hplus]
  have hdigits : ∀ v : List Char, (v ++ t).takeWhile Char.isDigit = v.takeWhile Char.isDigit := by
    intro v
    have hnone : t.takeWhile Char.isDigit = [] := by
      cases t with
      | nil => rfl
      | cons d ds => simp [ht d (by simp)]
    rw [List.takeWhile_append, hnone, List.append_nil]
    split_ifs with hlen
    · exact ((List.takeWhile_prefix _).eq_of_length hlen).symm
    · rfl
  simp only [atoi, number, List.cons_append, List.dropWhile_cons, hc, Bool.false_eq_true,
    ↓reduceIte, hsign, hdigits]
  by_cases hempty : (sign (c :: cs)).2.takeWhile Char.isDigit = []
  · simp [hempty]
  · simp [hempty]

/-- A number within the width of the conversion is stored unchanged. -/
theorem Conv.value_of_lt {c : Conv} {n : Nat} (h : n < 2 ^ c.width) : c.value (false, n) = n := by
  have hwidth : c.width ≤ 64 := by cases c <;> simp [Conv.width]
  have hle : 2 ^ c.width ≤ 2 ^ 64 := Nat.pow_le_pow_right (by omega) hwidth
  simp only [Conv.value, strtoul, Bool.false_eq_true, ↓reduceIte]
  rw [if_neg (by omega), Nat.mod_eq_of_lt h]

/-- `sscanf` makes no more conversions than the format has. -/
theorem length_sscanf_le (fmt : List Conv) (s : List Char) :
    (sscanf fmt s).length ≤ fmt.length := by
  induction fmt generalizing s with
  | nil => exact Nat.le_refl _
  | cons c cs ih =>
    cases hnum : number s with
    | none => simp [sscanf, hnum]
    | some r =>
      rw [sscanf, hnum]
      exact Nat.succ_le_succ (ih r.2)

/-- What `sscanf` stores fits the conversions. -/
theorem sscanf_lt {fmt : List Conv} {s : List Char} :
    ∀ v ∈ fmt.zip (sscanf fmt s), v.2 < 2 ^ v.1.width := by
  induction fmt generalizing s with
  | nil => simp
  | cons c cs ih =>
    intro v hv
    cases hnum : number s with
    | none => simp [sscanf, hnum] at hv
    | some r =>
      rw [sscanf, hnum, List.zip_cons_cons, List.mem_cons] at hv
      rcases hv with rfl | hv
      · exact Nat.mod_lt _ (Nat.two_pow_pos _)
      · exact ih v hv

theorem layout_cons (p : List Char × Nat) (ps : List (List Char × Nat)) :
    layout (p :: ps) = p.1 ++ decimal p.2 ++ layout ps := by
  simp [layout]

/-- Laid out numerals never run into what comes before them when their gaps are not empty. -/
theorem noDigit_layout {ps : List (List Char × Nat)} (hb : ∀ p ∈ ps, Blank p.1)
    (hne : ∀ p ∈ ps, p.1 ≠ []) {rest : List Char} (hr : NoDigit rest) :
    NoDigit (layout ps ++ rest) := by
  cases ps with
  | nil => simpa [layout] using hr
  | cons p ps =>
    -- the gap of the first numeral is what stands there
    rw [layout_cons, List.append_assoc, List.append_assoc]
    apply (hb p (by simp)).noDigit_append
    exact hne p (by simp)

/-- **`sscanf` undoes the layout.** Every conversion stores the numeral in its place, whatever
blanks separate the numerals and whatever follows the last one used. -/
theorem sscanf_layout : ∀ {fmt : List Conv} {ps : List (List Char × Nat)} {rest : List Char},
    fmt.length ≤ ps.length → (∀ p ∈ ps, Blank p.1) → (∀ p ∈ ps.tail, p.1 ≠ []) → NoDigit rest →
    sscanf fmt (layout ps ++ rest) = List.zipWith (fun c n => c.value (false, n)) fmt (ps.map (·.2))
  | [], _, _, _, _, _, _ => by simp [sscanf]
  | c :: cs, [], _, hlen, _, _, _ => by simp at hlen
  | c :: cs, p :: ps, rest, hlen, hb, hne, hr => by
    have hps : ∀ q ∈ ps, Blank q.1 := by
      intro q hq
      exact hb q (List.mem_cons_of_mem _ hq)
    have hnext : NoDigit (layout ps ++ rest) := noDigit_layout hps hne hr
    have ih : sscanf cs (layout ps ++ rest) = _ :=
      sscanf_layout (by simpa using hlen) hps (fun q hq => hne q (List.mem_of_mem_tail hq)) hr
    rw [layout_cons, List.append_assoc, sscanf, number_decimal (hb p (by simp)) p.2 hnext]
    simp [ih]

/-! ### Numerals in columns -/

/-- A numeral shorter than its column has blanks in front. -/
theorem margin_ne_nil_iff {w n : Nat} (hw : 1 < w) : margin w n ≠ [] ↔ n < 10 ^ (w - 1) := by
  rw [← length_decimal_lt_iff hw, margin, ne_eq, List.replicate_eq_nil_iff]
  omega

theorem spaced_cons_cons (w n m : Nat) (ns : List Nat) :
    spaced w (n :: m :: ns) = margin w n ++ decimal n ++ ' ' :: spaced w (m :: ns) := by
  simp [spaced, padded_eq]

theorem spaced_eq_layout (w n : Nat) (ns : List Nat) :
    spaced w (n :: ns) = layout (columns w (margin w n) n ns) := by
  induction ns generalizing n with
  | nil => simp [spaced, columns, layout, padded_eq]
  | cons m ns ih =>
    rw [spaced_cons_cons, ih]
    simp [columns, layout]

/-- Columns are made of blanks and digits. -/
theorem mem_spaced {w : Nat} {ns : List Nat} {c : Char} (hc : c ∈ spaced w ns) :
    c = ' ' ∨ c.isDigit = true := by
  have hpad : ∀ n, c ∈ margin w n ++ decimal n → c = ' ' ∨ c.isDigit = true := by
    intro n hn
    rcases List.mem_append.mp hn with hn | hn
    · exact Or.inl (List.mem_replicate.mp hn).2
    · exact Or.inr (isDigit_of_mem_decimal hn)
  induction ns with
  | nil => simp [spaced] at hc
  | cons n ns ih =>
    cases ns with
    | nil => exact hpad n (by simpa [spaced, padded_eq] using hc)
    | cons m ns =>
      rw [spaced_cons_cons] at hc
      rcases List.mem_append.mp hc with hc | hc
      · exact hpad n hc
      · rcases List.mem_cons.mp hc with hc | hc
        · exact Or.inl hc
        · exact ih hc

/-- **`sscanf` reads columns back**, however wide they are and whatever blanks come first. -/
theorem sscanf_columns {fmt : List Conv} {n : Nat} {ns : List Nat}
    (hlen : fmt.length ≤ ns.length + 1) (w : Nat) {g : List Char} (hg : Blank g) {rest : List Char}
    (hr : NoDigit rest) :
    sscanf fmt (layout (columns w g n ns) ++ rest) =
      List.zipWith (fun c n => c.value (false, n)) fmt (n :: ns) := by
  have hb : ∀ p ∈ columns w g n ns, Blank p.1 := by
    intro p hp
    rcases List.mem_cons.mp hp with rfl | hp
    · exact hg
    · obtain ⟨m, -, rfl⟩ := List.mem_map.mp hp
      exact (blank_replicate 1).append (blank_margin w m)
  have hne : ∀ p ∈ (columns w g n ns).tail, p.1 ≠ [] := by
    intro p hp
    obtain ⟨m, -, rfl⟩ := List.mem_map.mp hp
    apply List.cons_ne_nil
  rw [sscanf_layout (by simpa [columns] using hlen) hb hne hr]
  simp [columns, Function.comp_def]

end SysInfo.Lib.CScan
