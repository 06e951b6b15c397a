import Mathlib.Data.List.Forall2
import Mathlib.Data.List.Perm.Basic
import Mathlib.Tactic.Common

/-!
# Computations that may fail

A sequence of `Except` returns when both parts return, and fails when one of them fails
(`bind_eq_ok_iff`, `bind_eq_error_iff`). An `EStateM` that fails keeps the state it failed in:
`Avoids e x` says that `x` never fails with `e`, from no state, and a sequence avoids what its parts
avoid, each on what the parts before it hand over (`Avoids.bind`).
-/

namespace SysInfo.Lib

universe u

variable {ε σ α β : Type u}

/-! ## Sequences of `Except` -/

theorem bind_eq_ok_iff {x : Except ε α} {f : α → Except ε β} {b : β} :
    x >>= f = .ok b ↔ ∃ a, x = .ok a ∧ f a = .ok b := by
  cases x with
  | ok a =>
    show f a = .ok b ↔ _
    simp
  | error e =>
    show Except.error e = .ok b ↔ _
    simp

theorem bind_eq_error_iff {x : Except ε α} {f : α → Except ε β} {e : ε} :
    x >>= f = .error e ↔ x = .error e ∨ ∃ a, x = .ok a ∧ f a = .error e := by
  cases x with
  | ok a =>
    show f a = .error e ↔ _
    simp
  | error e' =>
    show Except.error e' = .error e ↔ _
    simp

/-- A `mapM` fails with nothing that none of its calls fails with. -/
theorem mapM_ne_error {r : α → Except ε β} {l : List α} {e : ε} (h : ∀ a ∈ l, r a ≠ .error e) :
    l.mapM r ≠ .error e := by
  induction l with
  | nil =>
    intro hl
    cases hl
  | cons a l ih =>
    intro hl
    rw [List.mapM_cons, bind_eq_error_iff] at hl
    obtain ha | ⟨b, -, hl⟩ := hl
    · exact h a (by simp) ha
    · obtain hrest | ⟨bs, -, hl⟩ := bind_eq_error_iff.mp hl
      · exact ih (fun a ha => h a (List.mem_cons_of_mem _ ha)) hrest
      · cases hl

/-- **A `mapM` returns what its calls return**, one by one. -/
theorem mapM_eq_ok_iff {r : α → Except ε β} {R : α → β → Prop} {l : List α}
    (h : ∀ a ∈ l, ∀ b, r a = .ok b ↔ R a b) {bs : List β} :
    l.mapM r = .ok bs ↔ List.Forall₂ R l bs := by
  induction l generalizing bs with
  | nil =>
    rw [List.forall₂_nil_left_iff]
    constructor
    · intro hl
      exact (Except.ok.inj hl).symm
    · rintro rfl
      rfl
  | cons a l ih =>
    have ih' := @ih fun a ha => h a (List.mem_cons_of_mem _ ha)
    rw [List.mapM_cons, bind_eq_ok_iff, List.forall₂_cons_left_iff]
    constructor
    · rintro ⟨b, ha, hrest⟩
      obtain ⟨bs', hl, hbs⟩ := bind_eq_ok_iff.mp hrest
      exact ⟨b, bs', (h a (by simp) b).mp ha, ih'.mp hl, (Except.ok.inj hbs).symm⟩
    · rintro ⟨b, bs', ha, hl, rfl⟩
      exact ⟨b, (h a (by simp) b).mpr ha, bind_eq_ok_iff.mpr ⟨bs', ih'.mpr hl, rfl⟩⟩

/-- It returns only if every call does. -/
theorem exists_of_mapM_eq_ok {r : α → Except ε β} {l : List α} {bs : List β}
    (h : l.mapM r = .ok bs) {a : α} (ha : a ∈ l) : ∃ b, r a = .ok b := by
  have hall := (mapM_eq_ok_iff fun _ _ _ => Iff.rfl).mp h
  clear h
  induction hall with
  | nil => cases ha
  | cons hb _ ih =>
    rcases List.mem_cons.mp ha with rfl | ha
    · exact ⟨_, hb⟩
    · exact ih ha

/-- Everything it returns was returned by a call. -/
theorem exists_of_mem_mapM {r : α → Except ε β} {l : List α} {bs : List β} (h : l.mapM r = .ok bs)
    {b : β} (hb : b ∈ bs) : ∃ a ∈ l, r a = .ok b := by
  have hall := (mapM_eq_ok_iff fun _ _ _ => Iff.rfl).mp h
  clear h
  induction hall with
  | nil => cases hb
  | @cons a _ _ _ ha _ ih =>
    rcases List.mem_cons.mp hb with rfl | hb
    · exact ⟨a, by simp, ha⟩
    · obtain ⟨a', ha', hok⟩ := ih hb
      exact ⟨a', List.mem_cons_of_mem _ ha', hok⟩

/-- What a `mapM` fails with is what one of its calls fails with. -/
theorem exists_of_mapM_eq_error {r : α → Except ε β} {l : List α} {e : ε}
    (h : l.mapM r = .error e) : ∃ a ∈ l, r a = .error e := by
  by_contra hnone
  apply mapM_ne_error _ h
  intro a ha herror
  exact hnone ⟨a, ha, herror⟩

/-- It reads the parts of a list one after the other. -/
theorem mapM_append_eq_ok_iff {r : α → Except ε β} {l l' : List α} {bs : List β} :
    (l ++ l').mapM r = .ok bs ↔
      ∃ bs₁ bs₂, l.mapM r = .ok bs₁ ∧ l'.mapM r = .ok bs₂ ∧ bs = bs₁ ++ bs₂ := by
  rw [List.mapM_append, bind_eq_ok_iff]
  constructor
  · rintro ⟨bs₁, h₁, hrest⟩
    obtain ⟨bs₂, h₂, hbs⟩ := bind_eq_ok_iff.mp hrest
    exact ⟨bs₁, bs₂, h₁, h₂, (Except.ok.inj hbs).symm⟩
  · rintro ⟨bs₁, bs₂, h₁, h₂, rfl⟩
    exact ⟨bs₁, h₁, bind_eq_ok_iff.mpr ⟨bs₂, h₂, rfl⟩⟩

/-- In another order it returns the same in another order. -/
theorem exists_perm_of_mapM {r : α → Except ε β} {l l' : List α} (hperm : l.Perm l') {bs : List β}
    (h : l.mapM r = .ok bs) : ∃ bs', l'.mapM r = .ok bs' ∧ bs'.Perm bs := by
  have hall := (mapM_eq_ok_iff fun _ _ _ => Iff.rfl).mp h
  obtain ⟨bs', hall', hbs⟩ := List.perm_comp_forall₂ hperm.symm hall
  exact ⟨bs', (mapM_eq_ok_iff fun _ _ _ => Iff.rfl).mpr hall', hbs⟩

/-- **Reading and folding in one pass** is reading everything and folding then, also where a call
fails. -/
theorem foldlM_eq_map_mapM {r : α → Except ε β} {g : σ → β → σ} (l : List α) (s : σ) :
    l.foldlM (fun s a => (r a).map (g s)) s = (l.mapM r).map (fun bs => bs.foldl g s) := by
  induction l generalizing s with
  | nil => rfl
  | cons a l ih =>
    rw [List.foldlM_cons, List.mapM_cons]
    cases r a with
    | error e => rfl
    | ok b =>
      show l.foldlM _ (g s b) = _
      rw [ih]
      cases l.mapM r <;> rfl

/-! ## Runs of `EStateM` -/

@[simp] theorem run_throw (e : ε) (s : σ) : (throw e : EStateM ε σ α).run s = .error e s := rfl

@[simp] theorem run_ofExcept (r : Except ε α) (s : σ) :
    (ofExcept r : EStateM ε σ α).run s =
      match r with
      | .ok a => .ok a s
      | .error e => .error e s := by
  cases r <;> rfl

theorem eq_ok_of_run_ofExcept {r : Except ε α} {a : α} {s s' : σ}
    (h : (ofExcept r : EStateM ε σ α).run s = .ok a s') : r = .ok a := by
  cases r with
  | ok b =>
    injection h with hb
    rw [hb]
  | error e => cases h

/-- What has failed does not return. -/
theorem not_exists_ok {x : EStateM ε σ α} {s s' : σ} {e : ε} (h : x.run s = .error e s') :
    ¬ ∃ a s₁, x.run s = .ok a s₁ := by
  rintro ⟨a, s₁, hok⟩
  rw [h] at hok
  cases hok

/-! ## Avoiding an error -/

/-- The computation does not end with the error `e`. -/
def Avoids (e : ε) (x : EStateM ε σ α) : Prop := ∀ s s', x.run s ≠ .error e s'

variable {e e' : ε} {x : EStateM ε σ α} {f : α → EStateM ε σ β}

theorem avoids_pure (a : α) : Avoids e (pure a : EStateM ε σ α) := by
  intro s s' h
  cases h

theorem avoids_modify (f : σ → σ) : Avoids e (modify f : EStateM ε σ PUnit) := by
  intro s s' h
  cases h

theorem avoids_throw (hne : e' ≠ e) : Avoids e (throw e' : EStateM ε σ α) := by
  intro s s' h
  injection h with he
  exact hne he

theorem avoids_ofExcept {r : Except ε α} (hr : r ≠ .error e) :
    Avoids e (ofExcept r : EStateM ε σ α) := by
  intro s s' h
  cases r with
  | ok a => cases h
  | error e₁ =>
    injection h with he
    exact hr (congrArg _ he)

/-- **A sequence avoids what its parts avoid.** -/
theorem Avoids.bind (hx : Avoids e x) (hf : ∀ s a s', x.run s = .ok a s' → Avoids e (f a)) :
    Avoids e (x >>= f) := by
  intro s s' h
  rw [EStateM.run_bind] at h
  cases hrun : x.run s with
  | ok a s₁ =>
    rw [hrun] at h
    exact hf s a s₁ hrun s₁ s' h
  | error e₁ s₁ =>
    rw [hrun] at h
    injection h with he
    subst he
    exact hx s s₁ hrun

end SysInfo.Lib
