import Mathlib.Data.List.Basic
import Mathlib.Data.List.Pairwise
import Mathlib.Order.Defs.Unbundled
import Mathlib.Tactic.Common

/-!
# Lists without duplicates up to an equivalence, grown at the end

A list that is only ever extended by `insertNew`, which appends an element unless an equivalent one
is there, is the first-occurrence de-duplication (`List.eraseDupsBy`) of everything that was offered
to it.
-/

namespace SysInfo.Lib.FirstOccurrence

/-- A decidable equivalence, bundled with its laws. -/
structure DecEquiv (κ : Type*) where
  same : κ → κ → Bool
  refl : ∀ a, same a a = true
  symm : ∀ {a b}, same a b = true → same b a = true
  trans : ∀ {a b c}, same a b = true → same b c = true → same a c = true

/-- Equality as an equivalence. -/
def DecEquiv.eq (κ : Type*) [DecidableEq κ] : DecEquiv κ where
  same a b := decide (a = b)
  refl a := by simp
  symm h := by simpa using (of_decide_eq_true h).symm
  trans h h' := by simpa using (of_decide_eq_true h).trans (of_decide_eq_true h')

/-- An equivalent of `x` is in the list. -/
def Covers {κ : Type*} (e : DecEquiv κ) (l : List κ) (x : κ) : Prop := ∃ y ∈ l, e.same y x = true

/-- No two elements of the list are equivalent. -/
def Distinct {κ : Type*} (e : DecEquiv κ) (l : List κ) : Prop :=
  l.Pairwise (fun a b => e.same a b = false)

instance {κ : Type*} (e : DecEquiv κ) (l : List κ) (x : κ) : Decidable (Covers e l x) :=
  inferInstanceAs (Decidable (∃ y ∈ l, _))

/-- Append `x` unless the list has an equivalent. -/
def insertNew {κ : Type*} (e : DecEquiv κ) (l : List κ) (x : κ) : List κ :=
  if Covers e l x then l else l ++ [x]

variable {κ : Type*} {e : DecEquiv κ} {l l' : List κ} {x y : κ}

/-! ## Membership up to the equivalence -/

theorem Covers.of_mem (h : x ∈ l) : Covers e l x := ⟨x, h, e.refl x⟩

theorem Covers.congr (h : e.same x y = true) (hx : Covers e l x) : Covers e l y := by
  obtain ⟨z, hz, hzx⟩ := hx
  exact ⟨z, hz, e.trans hzx h⟩

theorem covers_append : Covers e (l ++ l') x ↔ Covers e l x ∨ Covers e l' x := by
  simp only [Covers, List.mem_append]
  constructor
  · rintro ⟨y, hy | hy, h⟩
    · exact Or.inl ⟨y, hy, h⟩
    · exact Or.inr ⟨y, hy, h⟩
  · rintro (⟨y, hy, h⟩ | ⟨y, hy, h⟩)
    · exact ⟨y, Or.inl hy, h⟩
    · exact ⟨y, Or.inr hy, h⟩

theorem covers_cons : Covers e (x :: l) y ↔ e.same x y = true ∨ Covers e l y := by
  simp [Covers]

theorem covers_singleton : Covers e [x] y ↔ e.same x y = true := by
  simp [Covers]

theorem not_covers_iff : ¬ Covers e l x ↔ ∀ y ∈ l, e.same y x = false := by
  grind [Covers]

/-! ## Insertion -/

theorem insertNew_of_covers (h : Covers e l x) : insertNew e l x = l := if_pos h

theorem insertNew_of_not_covers (h : ¬ Covers e l x) : insertNew e l x = l ++ [x] := if_neg h

theorem prefix_insertNew : l <+: insertNew e l x := by
  unfold insertNew
  split
  · exact List.prefix_rfl
  · apply List.prefix_append

theorem Distinct.insertNew (hl : Distinct e l) : Distinct e (insertNew e l x) := by
  by_cases h : Covers e l x
  · rwa [insertNew_of_covers h]
  · rw [insertNew_of_not_covers h]
    apply List.pairwise_append.mpr
    refine ⟨hl, List.pairwise_singleton _ _, ?_⟩
    intro a ha b hb
    rw [List.mem_singleton.mp hb]
    exact not_covers_iff.mp h a ha

/-- As far as membership goes, offering is appending. -/
theorem covers_insertNew_iff : Covers e (insertNew e l x) y ↔ Covers e (l ++ [x]) y := by
  by_cases h : Covers e l x
  · rw [insertNew_of_covers h, covers_append]
    constructor
    · exact Or.inl
    · rintro (hy | ⟨z, hz, hzy⟩)
      · exact hy
      · rw [List.mem_singleton.mp hz] at hzy
        exact h.congr hzy
  · rw [insertNew_of_not_covers h]

theorem prefix_foldl_insertNew (xs : List κ) : l <+: xs.foldl (insertNew e) l := by
  induction xs generalizing l with
  | nil => exact List.prefix_rfl
  | cons x xs ih => exact prefix_insertNew.trans ih

theorem distinct_foldl_insertNew (hl : Distinct e l) (xs : List κ) :
    Distinct e (xs.foldl (insertNew e) l) := by
  induction xs generalizing l with
  | nil => exact hl
  | cons x xs ih => exact ih hl.insertNew

theorem covers_foldl_insertNew_iff (xs : List κ) :
    Covers e (xs.foldl (insertNew e) l) y ↔ Covers e (l ++ xs) y := by
  induction xs generalizing l with
  | nil => simp
  | cons x xs ih =>
    rw [List.foldl_cons, ih, covers_append, covers_insertNew_iff, ← covers_append,
      List.append_assoc, List.singleton_append]

/-! ## De-duplication

`eraseDupsBy` recurses from the front and throws later equivalents away; `insertNew` works at the
end. The bridge is one lemma about appending a single element. -/

theorem covers_eraseDupsBy : ∀ {l : List κ},
    Covers e (l.eraseDupsBy e.same) x ↔ Covers e l x
  | [] => by simp
  | a :: l => by
    rw [List.eraseDupsBy_cons]
    constructor
    · rintro ⟨y, hy, hyx⟩
      rcases List.mem_cons.mp hy with rfl | hy
      · exact ⟨y, by simp, hyx⟩
      · obtain ⟨z, hz, hzx⟩ := covers_eraseDupsBy.mp (⟨y, hy, hyx⟩ : Covers e _ x)
        exact ⟨z, List.mem_cons_of_mem _ (List.mem_filter.mp hz).1, hzx⟩
    · rintro ⟨y, hy, hyx⟩
      by_cases hya : e.same y a = true
      · exact ⟨a, by simp, e.trans (e.symm hya) hyx⟩
      · rcases List.mem_cons.mp hy with rfl | hy
        · exact absurd (e.refl y) hya
        · have hc : Covers e (l.filter fun b => e.same b a = false) x :=
            ⟨y, List.mem_filter.mpr ⟨hy, by simpa using hya⟩, hyx⟩
          obtain ⟨z, hz, hzx⟩ := covers_eraseDupsBy.mpr hc
          exact ⟨z, List.mem_cons_of_mem _ hz, hzx⟩
  termination_by l => l.length
  decreasing_by all_goals simpa using Nat.lt_succ_of_le (List.length_filter_le _ _)

theorem filter_concat_eraseDupsBy (l : List κ) (x : κ) :
    (l ++ [x]).eraseDupsBy e.same = insertNew e (l.eraseDupsBy e.same) x := by
  match l with
  | [] =>
    have hn : ¬ Covers e [] x := by simp [Covers]
    rw [List.eraseDupsBy_nil, insertNew_of_not_covers hn, List.nil_append, List.eraseDupsBy_cons]
    simp
  | a :: l =>
    have hcov : Covers e ((a :: l).eraseDupsBy e.same) x ↔
        e.same a x = true ∨
          Covers e ((l.filter fun b => e.same b a = false).eraseDupsBy e.same) x := by
      rw [List.eraseDupsBy_cons]
      simp [Covers]
    rw [List.cons_append, List.eraseDupsBy_cons, List.filter_append]
    by_cases hxa : e.same x a = true
    · -- `x` goes the way of `a`: it is filtered out on the left and covered on the right
      rw [insertNew_of_covers (hcov.mpr (Or.inl (e.symm hxa))), List.eraseDupsBy_cons]
      simp [hxa]
    · have hax : ¬ e.same a x = true := by
        intro h
        exact hxa (e.symm h)
      have ih := filter_concat_eraseDupsBy (l.filter fun b => e.same b a = false) x
      have hfx : [x].filter (fun b => decide (e.same b a = false)) = [x] := by
        simp [hxa]
      rw [hfx, ih]
      by_cases hc : Covers e ((l.filter fun b => e.same b a = false).eraseDupsBy e.same) x
      · rw [insertNew_of_covers hc, insertNew_of_covers (hcov.mpr (Or.inr hc)),
          List.eraseDupsBy_cons]
      · have hno : ¬ Covers e ((a :: l).eraseDupsBy e.same) x := by
          rw [hcov]
          intro h
          exact h.elim hax hc
        rw [insertNew_of_not_covers hc, insertNew_of_not_covers hno, List.eraseDupsBy_cons,
          List.cons_append]
  termination_by l.length
  decreasing_by all_goals simpa using Nat.lt_succ_of_le (List.length_filter_le _ _)

/-- A list without equivalents has no duplicates to lose. -/
theorem eraseDupsBy_of_distinct (h : Distinct e l) : l.eraseDupsBy e.same = l := by
  induction l with
  | nil => rfl
  | cons a l ih =>
    obtain ⟨ha, hl⟩ := List.pairwise_cons.mp h
    have hkeep : (l.filter fun b => e.same b a = false) = l := by
      apply List.filter_eq_self.mpr
      intro b hb
      cases hba : e.same b a with
      | false => rfl
      | true => exact absurd (e.symm hba) (by simp [ha b hb])
    rw [List.eraseDupsBy_cons, hkeep, ih hl]

/-- **Growing by `insertNew` is de-duplicating**: offering `xs` one after the other to the
de-duplication of `l` gives the de-duplication of `l ++ xs`. -/
theorem foldl_insertNew_eraseDupsBy (xs l : List κ) :
    xs.foldl (insertNew e) (l.eraseDupsBy e.same) = (l ++ xs).eraseDupsBy e.same := by
  induction xs generalizing l with
  | nil => simp
  | cons x xs ih =>
    rw [List.foldl_cons, ← filter_concat_eraseDupsBy, ih, List.append_assoc, List.singleton_append]

theorem distinct_eraseDupsBy (l : List κ) : Distinct e (l.eraseDupsBy e.same) := by
  have hgrown := foldl_insertNew_eraseDupsBy (e := e) l []
  rw [List.nil_append] at hgrown
  rw [← hgrown]
  exact distinct_foldl_insertNew List.Pairwise.nil l

/-- Offering what is covered changes nothing. -/
theorem foldl_insertNew_of_covers {xs : List κ} (h : ∀ x ∈ xs, Covers e l x) :
    xs.foldl (insertNew e) l = l := by
  induction xs with
  | nil => rfl
  | cons x xs ih =>
    rw [List.foldl_cons, insertNew_of_covers (h x (by simp))]
    exact ih fun y hy => h y (List.mem_cons_of_mem _ hy)

/-- What has been offered once can be offered again. -/
theorem eraseDupsBy_append_again (l xs : List κ) :
    ((l ++ xs).eraseDupsBy e.same ++ xs).eraseDupsBy e.same = (l ++ xs).eraseDupsBy e.same := by
  rw [← foldl_insertNew_eraseDupsBy, eraseDupsBy_of_distinct (distinct_eraseDupsBy _)]
  apply foldl_insertNew_of_covers
  intro x hx
  exact covers_eraseDupsBy.mpr (Covers.of_mem (List.mem_append_right l hx))

end SysInfo.Lib.FirstOccurrence
