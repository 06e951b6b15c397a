import Mathlib.Data.List.Pairwise
import Mathlib.Order.Basic
import Mathlib.Tactic.Common

/-!
# Ladders

A list of rungs whose grades do not fall, searched from the bottom. A value that is turned away by
more rungs ends on a higher one (`Ladder.first_mono`).
-/

namespace SysInfo.Lib

/-- Rungs from the lowest grade to the highest. -/
structure Ladder {ι γ : Type*} [LE γ] (grade : ι → γ) where
  rungs : List ι
  sorted : rungs.Pairwise fun r s => grade r ≤ grade s

namespace Ladder

variable {ι γ : Type*} [Preorder γ] {grade : ι → γ} {L : Ladder grade} {p q : ι → Bool} {r s : ι}

/-- The first rung that takes a value. -/
def first (L : Ladder grade) (takes : ι → Bool) : Option ι := L.rungs.find? takes

theorem mem_of_first (h : L.first p = some r) : r ∈ L.rungs := List.mem_of_find?_eq_some h

theorem takes_of_first (h : L.first p = some r) : p r = true := List.find?_some h

theorem exists_first_iff : (∃ r, L.first p = some r) ↔ ∃ r ∈ L.rungs, p r = true := by
  rw [← Option.isSome_iff_exists, first, List.find?_isSome]

/-- The rungs below the one that is found have turned the value away. -/
theorem exists_split_of_first (h : L.first p = some r) :
    ∃ pre post, L.rungs = pre ++ r :: post ∧ ∀ s ∈ pre, p s = false := by
  obtain ⟨-, pre, post, hsplit, hpre⟩ := List.find?_eq_some_iff_append.mp h
  refine ⟨pre, post, hsplit, ?_⟩
  intro s hs
  simpa using hpre s hs

/-- **Searching is monotone**: with fewer rungs that take the value the search ends no lower. -/
theorem first_mono (hle : ∀ r ∈ L.rungs, q r = true → p r = true) (hp : L.first p = some r)
    (hq : L.first q = some s) : grade r ≤ grade s := by
  obtain ⟨rungs, sorted⟩ := L
  unfold first at hp hq
  induction rungs with
  | nil => cases hp
  | cons a rungs ih =>
    obtain ⟨ha, htail⟩ := List.pairwise_cons.mp sorted
    rw [List.find?_cons] at hp hq
    cases hqa : q a with
    | true =>
      have hpa : p a = true := hle a (by simp) hqa
      rw [hpa] at hp
      rw [hqa] at hq
      obtain rfl : a = r := Option.some.inj hp
      obtain rfl : a = s := Option.some.inj hq
      exact le_refl _
    | false =>
      rw [hqa] at hq
      cases hpa : p a with
      | true =>
        rw [hpa] at hp
        obtain rfl : a = r := Option.some.inj hp
        exact ha s (List.mem_of_find?_eq_some hq)
      | false =>
        rw [hpa] at hp
        exact ih htail (fun r hr => hle r (List.mem_cons_of_mem _ hr)) hp hq

end Ladder

end SysInfo.Lib
