import Mathlib.Data.List.Basic
import Mathlib.Tactic.Common

/-!
# Paths

The components of a path, the last of them, and where an absolute path leads when no directory on
the way is a symbolic link.

    path ──splitOn '/'──▶ components ──walk──▶ directory
-/

namespace SysInfo.Lib.Path

/-- What a component leads to from a directory. -/
def walk (dir : List (List Char)) (component : List Char) : List (List Char) :=
  if component = [] ∨ component = ['.'] then dir
  else if component = ['.', '.'] then dir.dropLast
  else dir ++ [component]

/-- Where a path leads from the root. -/
def resolve (path : List Char) : List (List Char) := (path.splitOn '/').foldl walk []

/-- The part behind the last slash, the whole path when there is none. -/
def base (path : List Char) : List Char := (path.splitOn '/').getLastD []

/-- A component that names an entry of a directory. -/
def IsEntry (component : List Char) : Prop :=
  component ≠ [] ∧ component ≠ ['.'] ∧ component ≠ ['.', '.']

instance (component : List Char) : Decidable (IsEntry component) :=
  inferInstanceAs (Decidable (_ ∧ _ ∧ _))

variable {p n : List Char}

/-! ## The last component -/

theorem base_of_notMem (h : '/' ∉ n) : base n = n := by
  rw [base, List.splitOn_eq_singleton h]
  rfl

theorem base_append (h : '/' ∉ n) : base (p ++ '/' :: n) = n := by
  rw [base, List.splitOn_append_cons_self, List.splitOn_eq_singleton h]
  simp

/-- A path with a slash is what stands in front of the last one, the slash and the last
component. -/
theorem exists_eq_append_base (h : '/' ∈ p) :
    ∃ q, p = q ++ '/' :: base p ∧ '/' ∉ base p := by
  obtain ⟨n, q, hrev, hn⟩ := List.eq_append_cons_of_mem (List.mem_reverse.mpr h)
  have hp : p = q.reverse ++ '/' :: n.reverse := by
    rw [← List.reverse_reverse p, hrev]
    simp
  have hslash : '/' ∉ n.reverse := mt List.mem_reverse.mp hn
  have hbase : base p = n.reverse := by
    rw [hp]
    exact base_append hslash
  rw [hbase]
  exact ⟨q.reverse, hp, hslash⟩

theorem slash_notMem_base (p : List Char) : '/' ∉ base p := by
  by_cases h : '/' ∈ p
  · obtain ⟨-, -, hbase⟩ := exists_eq_append_base h
    exact hbase
  · rwa [base_of_notMem h]

theorem mem_of_mem_base {c : Char} (hc : c ∈ base p) : c ∈ p := by
  by_cases h : '/' ∈ p
  · obtain ⟨q, hq, -⟩ := exists_eq_append_base h
    rw [hq]
    exact List.mem_append_right q (List.mem_cons_of_mem _ hc)
  · rwa [base_of_notMem h] at hc

/-! ## Resolution -/

theorem resolve_append (p q : List Char) :
    resolve (p ++ '/' :: q) = (q.splitOn '/').foldl walk (resolve p) := by
  rw [resolve, List.splitOn_append_cons_self, List.foldl_append]
  rfl

theorem walk_of_isEntry {dir : List (List Char)} (h : IsEntry n) : walk dir n = dir ++ [n] := by
  obtain ⟨hempty, hdot, hdots⟩ := h
  rw [walk, if_neg (not_or.mpr ⟨hempty, hdot⟩), if_neg hdots]

/-- An entry of a directory is directly inside it. -/
theorem resolve_entry (hn : '/' ∉ n) (h : IsEntry n) :
    resolve (p ++ '/' :: n) = resolve p ++ [n] := by
  rw [resolve_append, List.splitOn_eq_singleton hn]
  exact walk_of_isEntry h

/-- **A component leads directly inside exactly when it names an entry.** -/
theorem exists_resolve_eq_iff (hn : '/' ∉ n) :
    (∃ e, resolve (p ++ '/' :: n) = resolve p ++ [e]) ↔ IsEntry n := by
  constructor
  · intro hinside
    obtain ⟨e, he⟩ := hinside
    rw [resolve_append, List.splitOn_eq_singleton hn] at he
    change walk (resolve p) n = _ at he
    by_contra hentry
    have hlength : (walk (resolve p) n).length ≤ (resolve p).length := by
      unfold walk
      split
      · exact Nat.le_refl _
      · split
        · rw [List.length_dropLast]
          omega
        · next hstay hback =>
          obtain ⟨hempty, hdot⟩ := not_or.mp hstay
          exact absurd ⟨hempty, hdot, hback⟩ hentry
    rw [he, List.length_append, List.length_singleton] at hlength
    omega
  · intro h
    exact ⟨n, resolve_entry hn h⟩

end SysInfo.Lib.Path
