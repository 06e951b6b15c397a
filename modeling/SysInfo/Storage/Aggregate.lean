import SysInfo.Storage.Total

/-!
# The nameless `Stat` and the listing

    /proc/diskstats ──get──▶ [Stat, …] ──sum──▶ Stat
            └──────────────Stat("")──────────────▲

Two functions read the file. `get` makes an object of each line; the constructor adds the objects up
on its way and keeps none. Whatever is in the file, they take it or refuse it alike, and the second
gives the sum over what the first lists, so that the sum can be taken in parts (`totals_of_parts`).
-/

namespace SysInfo.Storage

open Lib (total)

namespace Stat

/-- The constructor takes the object. -/
def extended (st : Stat) : Bool := decide (st.major = blockExtMajor)

/-- The sum over the objects it takes. -/
def sum (listing : List Stat) : Stat := (listing.filter extended).foldl add {}

/-! ## Sums -/

theorem sum_concat (listing : List Stat) (st : Stat) :
    sum (listing ++ [st]) = if st.extended then (sum listing).add st else sum listing := by
  cases hst : st.extended <;> simp [sum, List.filter_append, hst]

theorem nameless_sum (listing : List Stat) : (sum listing).Nameless := by
  induction listing using List.reverseRecOn with
  | nil => exact ⟨rfl, rfl, rfl⟩
  | append_singleton listing st ih =>
    rw [sum_concat]
    split
    · exact nameless_add _ st
    · exact ih

theorem counter_sum (listing : List Stat) (k : Counter) :
    (sum listing).counter k = total extended (fun st => st.counter k) listing % 2 ^ k.width := by
  induction listing using List.reverseRecOn with
  | nil => cases k <;> rfl
  | append_singleton listing st ih =>
    rw [sum_concat, Lib.total_append, Lib.total_cons, Lib.total_nil, Nat.add_zero]
    split
    -- the field wraps at every addition, and the sum only once
    · rw [counter_add, ih, Nat.mod_add_mod]
    · rw [ih, Nat.add_zero]

/-- The sum over two parts of a listing is the sum of theirs. -/
theorem sum_of_perm {listing listing₁ listing₂ : List Stat}
    (hperm : listing.Perm (listing₁ ++ listing₂)) :
    sum listing = (sum listing₁).add (sum listing₂) := by
  obtain ⟨hdevice, hmajor, hminor⟩ := nameless_sum listing
  apply ext_counter hdevice hmajor hminor
  intro k
  rw [counter_add, counter_sum, counter_sum, counter_sum, Lib.total_perm hperm, Lib.total_append,
    ← Nat.add_mod]

/-! ## The two readers -/

theorem ofName_empty (h : Host) :
    ofName h "" =
      (rethrow (h.lines "/proc/diskstats") >>= fun lines =>
        (lines.filter (· ≠ "")).foldlM addLine {}) := by
  have hname : Device.nameFactory "" false = .ok "" := by decide
  rw [ofName, hname]
  rfl

/-- What a line adds is what `get` makes of it, if the constructor takes that. -/
theorem addLine_eq_map (st : Stat) (line : String) :
    addLine st line = (ofLine line).map fun s => if s.extended then st.add s else st := by
  rw [addLine]
  cases ofLine line with
  | error e => rfl
  | ok s => simp [extended, Except.map]

/-- **The constructor sums up what `get` lists**, and throws what `get` throws. -/
theorem ofName_eq_map_get (h : Host) : ofName h "" = (Stat.get h).map sum := by
  have hline : addLine = fun st line =>
      (ofLine line).map fun s => if s.extended then st.add s else st := by
    funext st line
    exact addLine_eq_map st line
  have hsum : sum = fun listing =>
      listing.foldl (fun st s => if s.extended then st.add s else st) {} := by
    funext listing
    rw [sum, List.foldl_filter]
  rw [ofName_empty, Stat.get]
  cases h.lines "/proc/diskstats" with
  | error e => rfl
  | ok lines =>
    -- one pass over the lines against a pass that reads and one that adds
    rw [hline, hsum]
    exact Lib.foldlM_eq_map_mapM _ _

theorem ofName_ok_iff {h : Host} {st : Stat} :
    ofName h "" = .ok st ↔ ∃ listing, Stat.get h = .ok listing ∧ sum listing = st := by
  rw [ofName_eq_map_get]
  cases Stat.get h <;> simp [Except.map]

/-- A part of an accepted file is accepted, and listed as a part of the listing. -/
theorem get_of_perm {h h₁ h₂ : Host} {lines lines₁ lines₂ : List String}
    (hfile : h.lines "/proc/diskstats" = .ok lines)
    (hfile₁ : h₁.lines "/proc/diskstats" = .ok lines₁)
    (hfile₂ : h₂.lines "/proc/diskstats" = .ok lines₂) (hperm : lines.Perm (lines₁ ++ lines₂)) :
    (∀ listing, Stat.get h = .ok listing → ∃ listing₁ listing₂, Stat.get h₁ = .ok listing₁ ∧
      Stat.get h₂ = .ok listing₂ ∧ listing.Perm (listing₁ ++ listing₂)) ∧
    ∀ listing₁ listing₂, Stat.get h₁ = .ok listing₁ → Stat.get h₂ = .ok listing₂ →
      ∃ listing, Stat.get h = .ok listing ∧ listing.Perm (listing₁ ++ listing₂) := by
  have hfilter := hperm.filter (· ≠ "")
  rw [List.filter_append] at hfilter
  rw [get_of_lines hfile, get_of_lines hfile₁, get_of_lines hfile₂]
  constructor
  · intro listing hok
    obtain ⟨listing', hok', hlisting⟩ := Lib.exists_perm_of_mapM hfilter hok
    obtain ⟨listing₁, listing₂, hok₁, hok₂, rfl⟩ := Lib.mapM_append_eq_ok_iff.mp hok'
    exact ⟨listing₁, listing₂, hok₁, hok₂, hlisting.symm⟩
  · intro listing₁ listing₂ hok₁ hok₂
    have hok' := Lib.mapM_append_eq_ok_iff.mpr ⟨listing₁, listing₂, hok₁, hok₂, rfl⟩
    exact Lib.exists_perm_of_mapM hfilter.symm hok'

end Stat

/-- **The sum can be taken in parts.** For any content of the file, the constructor without a name
throws what `get` throws and otherwise adds up what `get` lists; and however the lines are dealt out
to two machines, and in whatever order, it returns when it does on both, with the sum of the two. -/
theorem totals_of_parts (h h₁ h₂ : Host) (lines lines₁ lines₂ : List String)
    (hfile : h.lines "/proc/diskstats" = .ok lines)
    (hfile₁ : h₁.lines "/proc/diskstats" = .ok lines₁)
    (hfile₂ : h₂.lines "/proc/diskstats" = .ok lines₂) (hperm : lines.Perm (lines₁ ++ lines₂)) :
    (∀ e, Stat.ofName h "" = .error e ↔ Stat.get h = .error e) ∧
    (∀ st, Stat.ofName h "" = .ok st → st.Nameless ∧ ∃ listing, Stat.get h = .ok listing ∧
      ∀ k, st.counter k = total Stat.extended (fun st => st.counter k) listing % 2 ^ k.width) ∧
    ∀ st, Stat.ofName h "" = .ok st ↔
      ∃ st₁ st₂, Stat.ofName h₁ "" = .ok st₁ ∧ Stat.ofName h₂ "" = .ok st₂ ∧ st = st₁.add st₂ := by
  obtain ⟨hsplit, hjoin⟩ := Stat.get_of_perm hfile hfile₁ hfile₂ hperm
  refine ⟨?_, ?_, ?_⟩
  · intro e
    rw [Stat.ofName_eq_map_get]
    cases Stat.get h <;> simp [Except.map]
  · intro st hok
    obtain ⟨listing, hlisting, rfl⟩ := Stat.ofName_ok_iff.mp hok
    exact ⟨Stat.nameless_sum listing, listing, hlisting, Stat.counter_sum listing⟩
  · intro st
    simp only [Stat.ofName_ok_iff]
    constructor
    · rintro ⟨listing, hok, rfl⟩
      obtain ⟨listing₁, listing₂, hok₁, hok₂, hlisting⟩ := hsplit listing hok
      exact ⟨_, _, ⟨listing₁, hok₁, rfl⟩, ⟨listing₂, hok₂, rfl⟩, Stat.sum_of_perm hlisting⟩
    · rintro ⟨_, _, ⟨listing₁, hok₁, rfl⟩, ⟨listing₂, hok₂, rfl⟩, rfl⟩
      obtain ⟨listing, hok, hlisting⟩ := hjoin listing₁ listing₂ hok₁ hok₂
      exact ⟨listing, hok, Stat.sum_of_perm hlisting⟩

/-- Two disks, each on a machine of its own. -/
theorem totals_of_parts_sda_nvme :
    ∃ st st₁ st₂, Stat.ofName (withLines Host.bare [sda 7, nvme0]) "" = .ok st ∧
      Stat.ofName (withLines Host.bare [nvme0]) "" = .ok st₁ ∧
      Stat.ofName (withLines Host.bare [sda 7]) "" = .ok st₂ ∧ st = st₁.add st₂ := by
  obtain ⟨st, hok, -, -⟩ := ofName_nameless (h := withLines Host.bare [sda 7, nvme0]) rfl
    (listing_map_line [sda 7, nvme0])
  obtain ⟨-, -, hparts⟩ := totals_of_parts (withLines Host.bare [sda 7, nvme0])
    (withLines Host.bare [nvme0]) (withLines Host.bare [sda 7]) _ _ _ rfl rfl rfl
    (List.Perm.swap _ _ [])
  obtain ⟨st₁, st₂, hok₁, hok₂, hst⟩ := (hparts st).mp hok
  exact ⟨st, st₁, st₂, hok, hok₁, hok₂, hst⟩

end SysInfo.Storage
