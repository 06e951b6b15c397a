import SysInfo.Lib.IStream
import SysInfo.System.Stat

/-!
# The CPU line of `/proc/stat`

The constructor of `System::Stat` skips the name of the line and extracts ten numbers. Older kernels
write fewer than ten, newer ones may write more, and on either the line is decoded field by field
(`cpu_line_decoded`): behind a short line comes the name of the next one, and the extractions that
are left over fail on it.
-/

namespace SysInfo.System

open Lib (IStream)
open Lib.CScan Lib.IStream

/-- An `ifstream` on a file with this content, one that failed to open when there is none. -/
def ifstream : Except Exception String → IStream
  | .ok content => { rest := content.toList }
  | .error _ => { rest := [], fail := true }

/-- `System::Stat::Stat()`. An extraction gives the value of the field and the stream for the next
one. -/
def Stat.ofProc (h : Host) : Stat :=
  let user := ((ifstream (h.text "/proc/stat")).ignore 3).extract 0
  let nice := user.2.extract 0
  let system := nice.2.extract 0
  let idle := system.2.extract 0
  let iowait := idle.2.extract 0
  let irq := iowait.2.extract 0
  let softirq := irq.2.extract 0
  let steal := softirq.2.extract 0
  let guest := steal.2.extract 0
  let guestNice := guest.2.extract 0
  { user := user.1
    nice := nice.1
    system := system.1
    idle := idle.1
    iowait := iowait.1
    irq := irq.1
    softirq := softirq.1
    steal := steal.1
    guest := guest.1
    guestNice := guestNice.1 }

/-- The fields are a chain of ten extractions. -/
theorem map_get_ofProc (h : Host) :
    StatType.fields.map (Stat.ofProc h).get =
      extracted 10 ((ifstream (h.text "/proc/stat")).ignore 3) := by
  simp only [StatType.fields, List.map_cons, List.map_nil, Stat.get, Stat.ofProc, extracted]

/-- The first line of a `/proc/stat`: behind `cpu` a row of numerals, blanks at its end. That no
blank in it ends the line is not asked for, a line end is white space to the stream as any other. -/
structure CpuLine where
  values : List ℕ
  row : List Char
  trail : List Char
  row_values : Row values row
  blank : Blank trail
  lt : ∀ v ∈ values, v < 2 ^ 64

/-- The characters of the line. -/
def CpuLine.text (line : CpuLine) : List Char := "cpu".toList ++ (line.row ++ line.trail)

/-- What may follow the line: nothing, or a line that starts with a letter, if with anything. -/
def Follows (tail : List Char) : Prop :=
  tail = [] ∨ ∃ next, tail = '\n' :: next ∧ ∀ c ∈ next.head?, c.isAlpha = true

/-- A letter is no space and starts no number. -/
theorem isAlpha_starts_no_number {c : Char} (h : c.isAlpha = true) :
    isspace c = false ∧ c.isDigit = false ∧ c ≠ '-' ∧ c ≠ '+' := by
  -- all letters come behind the digits, and these behind the signs and the white space
  have hc : 65 ≤ c.toNat := by
    rcases Bool.or_eq_true_iff.mp h with hupper | hlower
    · have hrange : 'A'.val ≤ c.val ∧ c.val ≤ 'Z'.val := of_decide_eq_true hupper
      exact UInt32.le_iff_toNat_le.mp hrange.1
    · change (decide ('a'.val ≤ c.val) && decide (c.val ≤ 'z'.val)) = true at hlower
      have hle := of_decide_eq_true (Bool.and_eq_true_iff.mp hlower).1
      have hnat : 97 ≤ c.toNat := UInt32.le_iff_toNat_le.mp hle
      omega
  refine ⟨?_, ?_, ?_, ?_⟩
  · grind [isspace]
  · cases hd : c.isDigit with
    | false => rfl
    | true =>
      have hdigit := toNat_of_isDigit hd
      omega
  · intro hminus
    subst hminus
    exact absurd hc (by decide)
  · intro hplus
    subst hplus
    exact absurd hc (by decide)

/-- No number can be read behind the row. -/
theorem noNumber_of_follows {trail tail : List Char} (hblank : Blank trail) (h : Follows tail) :
    NoDigit (trail ++ tail) ∧ NoNumber (trail ++ tail) := by
  rcases h with rfl | ⟨next, rfl, hnext⟩
  · have hskip : (trail ++ []).dropWhile isspace = [] := by
      rw [List.dropWhile_append_of_pos hblank, List.dropWhile_nil]
    rw [NoNumber, hskip, List.append_nil]
    exact ⟨hblank.noDigit, by simp⟩
  · have hnewline : Blank (trail ++ ['\n']) := hblank.append (by simp [Blank, isspace])
    rw [List.append_cons]
    refine ⟨?_, ?_⟩
    · exact hnewline.noDigit_append (by simp) next
    · rw [NoNumber, List.dropWhile_append_of_pos hnewline]
      cases next with
      | nil => simp
      | cons c cs =>
        obtain ⟨hspace, hnumber⟩ := isAlpha_starts_no_number (hnext c rfl)
        rw [List.dropWhile_cons, hspace]
        intro a ha
        obtain rfl : c = a := Option.some.inj ha
        exact hnumber

/-- **The CPU line is decoded on every kernel generation**: the fields take the numbers of the line
in their order, and the fields without a number are 0. -/
theorem cpu_line_decoded (h : Host) (line : CpuLine) (tail : List Char) (hfollows : Follows tail)
    (hfile : h.text "/proc/stat" = .ok (String.ofList (line.text ++ tail))) :
    StatType.fields.map (fun field => ((Stat.ofProc h).get field).toNat) =
      line.values.take 10 ++ List.replicate (10 - line.values.length) 0 := by
  obtain ⟨hdigit, hnumber⟩ := noNumber_of_follows line.blank hfollows
  have hstream : (ifstream (h.text "/proc/stat")).ignore 3 =
      { rest := line.row ++ (line.trail ++ tail) } := by
    rw [hfile, ifstream, String.toList_ofList, CpuLine.text, List.append_assoc, List.append_assoc]
    simp [ignore, good]
  have hfields : StatType.fields.map (Stat.ofProc h).get =
      (line.values.take 10).map .ofNat ++ List.replicate (10 - line.values.length) 0 := by
    rw [map_get_ofProc, hstream]
    exact extracted_row line.row_values line.lt hdigit hnumber (fun _ => rfl) rfl 10
  have hnat : (line.values.take 10).map (UInt64.toNat ∘ UInt64.ofNat) = line.values.take 10 := by
    apply Eq.trans (List.map_congr_left ?_) (List.map_id _)
    intro v hv
    exact UInt64.toNat_ofNat_of_lt' (line.lt v (List.mem_of_mem_take hv))
  calc StatType.fields.map (fun field => ((Stat.ofProc h).get field).toNat)
      = (StatType.fields.map (Stat.ofProc h).get).map UInt64.toNat := by rw [List.map_map]; rfl
    _ = ((line.values.take 10).map UInt64.ofNat).map UInt64.toNat ++
          List.replicate (10 - line.values.length) 0 := by
        rw [hfields, List.map_append, List.map_replicate]
        rfl
    _ = line.values.take 10 ++ List.replicate (10 - line.values.length) 0 := by
        rw [List.map_map, hnat]

/-- The numbers of a kernel that writes four, behind their gaps, -/
def fourColumns : List (List Char × ℕ) := [([' ', ' '], 7), ([' '], 0), ([' '], 12), ([' '], 345)]

/-- and the line it writes. -/
def fourNumbers : CpuLine where
  values := fourColumns.map (·.2)
  row := layout fourColumns
  trail := []
  row_values := row_layout (by simp [fourColumns, Blank, isspace]) (by simp [fourColumns])
  blank := blank_nil
  lt := by decide

/-- A machine with this kernel and one CPU. -/
def oldKernel : Host where
  __ := Host.bare
  text _ := .ok "cpu  7 0 12 345\ncpu0 7 0 12 345\nintr 9"

/-- The next line starts with the `c` of `cpu0`. -/
theorem cpu_line_decoded_fourNumbers :
    StatType.fields.map (fun field => ((Stat.ofProc oldKernel).get field).toNat) =
      [7, 0, 12, 345, 0, 0, 0, 0, 0, 0] := by
  have hfollows : Follows ('\n' :: "cpu0 7 0 12 345\nintr 9".toList) := by
    refine Or.inr ⟨_, rfl, ?_⟩
    intro c hc
    obtain rfl : 'c' = c := Option.some.inj hc
    rfl
  exact cpu_line_decoded oldKernel fourNumbers _ hfollows (by decide)

/-! ## Any other file -/

/-- What a stream on the file has behind the first three characters. -/
def behindName (h : Host) : List Char :=
  match h.text "/proc/stat" with
  | .ok content => content.toList.drop 3
  | .error _ => []

theorem rest_ignore_ifstream (h : Host) :
    ((ifstream (h.text "/proc/stat")).ignore 3).rest = behindName h ∧
      (((ifstream (h.text "/proc/stat")).ignore 3).good = true ∨ behindName h = []) := by
  unfold behindName
  cases h.text "/proc/stat" with
  | error e => exact ⟨rfl, Or.inr rfl⟩
  | ok content =>
    refine ⟨rfl, ?_⟩
    by_cases hshort : content.toList.length < 3
    · exact Or.inr (List.drop_eq_nil_of_le hshort.le)
    · left
      show IStream.good { rest := _, eof := decide (content.toList.length < 3) } = true
      simp [good, hshort]

/-- **What is made of any file at all**, one that cannot be opened, is cut off or has anything else
in it: the fields take the numbers behind the third character in their order, a negative one within
64 bits, through the first that does not fit, which gives the largest value there is. From there on,
and from the first thing on that is no number, the fields are 0. -/
theorem cpu_file_decoded (h : Host) :
    let stored := through overflows (numerals 10 (behindName h))
    StatType.fields.map (Stat.ofProc h).get =
      stored.map (fun x => .ofNat (strtoul x)) ++ List.replicate (10 - stored.length) 0 := by
  intro stored
  obtain ⟨hrest, hgood⟩ := rest_ignore_ifstream h
  rw [← hrest] at hgood
  rw [map_get_ofProc, extracted_eq hgood, hrest]

/-- Of a number that does not fit, and of what is behind it. -/
example : through overflows (numerals 10 " 7 18446744073709551616 3".toList) =
    [(false, 7), (false, 18446744073709551616)] := by
  decide

end SysInfo.System
