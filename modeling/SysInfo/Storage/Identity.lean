import SysInfo.Storage.Total

/-!
# Which disk a `Stat` stands for

Two objects are equal when their major and minor numbers are. The numbers come from the lines of
`/proc/diskstats` and nowhere else: an object that is built by name has none
(`identity_by_name_iff`), and what the lines have does not always fit the fields
(`listing_distinct_iff`).
-/

namespace SysInfo.Storage

open Lib.CScan

theorem Stat.eq_iff {st s : Stat} : st.eq s = true ↔ st.major = s.major ∧ st.minor = s.minor := by
  rw [Stat.eq, Bool.and_eq_true, beq_iff_eq, beq_iff_eq]

/-! ## Objects built by name -/

theorem ofName_named {h : Host} {n device : String}
    (hname : Device.nameFactory n false = .ok device) (hd : device ≠ "") :
    Stat.ofName h n =
      match (Stat.load h).run { device := device } with
      | .ok _ st => .ok st
      | .error e _ => .error e := by
  rw [Stat.ofName, hname]
  exact if_pos hd

/-- **An object built by name has no device number**: `load` stores counters, and adding lines up
clears the numbers. -/
theorem ofName_identity {h : Host} {n : String} {st : Stat} (hok : Stat.ofName h n = .ok st) :
    st.major = 0 ∧ st.minor = 0 := by
  obtain ⟨device, -, hbuilt⟩ := Lib.bind_eq_ok_iff.mp hok
  by_cases hd : device = ""
  · -- all disks: `operator+=` clears the numbers, and nothing else sets them
    subst hd
    obtain ⟨lines, -, hsum⟩ := Lib.bind_eq_ok_iff.mp hbuilt
    exact (nameless_of_foldlM_addLine ⟨rfl, rfl, rfl⟩ hsum).2
  · -- one disk: `load` leaves the numbers as the object is born with them
    rw [if_pos hd] at hbuilt
    cases hload : (Stat.load h).run { device := device } with
    | error e st' =>
      rw [hload] at hbuilt
      cases hbuilt
    | ok u st' =>
      rw [hload] at hbuilt
      obtain rfl : st' = st := Except.ok.inj hbuilt
      obtain ⟨vs, rfl⟩ := exists_storeAll_of_load hload
      exact (Stat.identity_storeAll vs _).2

/-- What equality is for: the object built by the name of a disk is that disk, seen from either
side, and the objects built by two names are equal exactly when the disks are. -/
def IdentifiesDisks (a b sa sb : Stat) : Prop :=
  sa.eq a = true ∧ a.eq sa = true ∧ (sa.eq sb = true ↔ a.eq b = true)

/-- **When equality is the identity of the disks**: for a disk with the numbers 0 and 0, compared
with itself. -/
theorem identity_by_name_iff (h h' : Host) (a b sa sb : Stat)
    (hsa : Stat.ofName h a.device = .ok sa) (hsb : Stat.ofName h' b.device = .ok sb) :
    IdentifiesDisks a b sa sb ↔ a.major = 0 ∧ a.minor = 0 ∧ a.eq b = true := by
  obtain ⟨hmajor, hminor⟩ := ofName_identity hsa
  obtain ⟨hmajor', hminor'⟩ := ofName_identity hsb
  -- two objects built by name are equal, whatever the names
  have hsame : sa.eq sb = true :=
    Stat.eq_iff.mpr ⟨hmajor.trans hmajor'.symm, hminor.trans hminor'.symm⟩
  unfold IdentifiesDisks
  rw [Stat.eq_iff, Stat.eq_iff, hmajor, hminor, iff_true_left hsame]
  constructor
  · rintro ⟨⟨hj, hn⟩, -, heq⟩
    exact ⟨hj.symm, hn.symm, heq⟩
  · rintro ⟨hj, hn, heq⟩
    exact ⟨⟨hj.symm, hn.symm⟩, ⟨hj, hn⟩, heq⟩

/-- A machine with one `sda`. -/
def servingSda : Host where
  __ := Host.bare
  lines _ := .ok [(sda 7).line]
  text _ := .ok (sda 7).statText

/-- What the machine has for the name. -/
def loadedSda : Stat :=
  Stat.storeAll { device := "sda" } (Counter.all.zip (Counter.all.map (sda 7).counter))

theorem ofName_servingSda : Stat.ofName servingSda (sda 7).stat.device = .ok loadedSda := by
  have hname : Device.nameFactory "sda" false = .ok "sda" := by decide
  have hserved : Record.ServedBy servingSda { device := "sda" } (sda 7) := ⟨by decide, rfl⟩
  rw [Record.stat_device]
  show Stat.ofName servingSda "sda" = _
  rw [ofName_named hname (by decide), Record.load_of_lt hserved (by decide)]
  rfl

theorem identity_by_name_sda :
    IdentifiesDisks (sda 7).stat (sda 7).stat loadedSda loadedSda ↔
      (sda 7).stat.major = 0 ∧ (sda 7).stat.minor = 0 ∧ (sda 7).stat.eq (sda 7).stat = true :=
  identity_by_name_iff servingSda servingSda _ _ _ _ ofName_servingSda ofName_servingSda

/-- The disk is listed with 8 for its major number, and is not equal to what its name gives. -/
theorem not_identifiesDisks_sda :
    Stat.get servingSda = .ok [(sda 7).stat] ∧
      Stat.ofName servingSda (sda 7).stat.device = .ok loadedSda ∧
      ¬ IdentifiesDisks (sda 7).stat (sda 7).stat loadedSda loadedSda := by
  have hfile : servingSda.lines "/proc/diskstats" = .ok [(sda 7).line] := rfl
  refine ⟨get_listing hfile (listing_map_line [sda 7]), ofName_servingSda, ?_⟩
  rintro ⟨-, hsame, -⟩
  obtain ⟨hmajor, _⟩ := Stat.eq_iff.mp hsame
  have height : (sda 7).stat.major.toNat = 8 := Record.stat_major _
  rw [hmajor, (ofName_identity ofName_servingSda).1] at height
  cases height

/-! ## Objects from the listing -/

theorem Record.stat_eq_iff {r s : Record} :
    r.stat.eq s.stat = true ↔ r.major = s.major ∧ r.minor ≡ s.minor [MOD 65536] := by
  rw [Stat.eq_iff, ← UInt16.toNat_inj, ← UInt16.toNat_inj, r.stat_major, s.stat_major, r.stat_minor,
    s.stat_minor]
  rfl

/-- What a listing is for: the objects are those of different disks. -/
def ListsDistinct (h : Host) : Prop :=
  ∃ stats, Stat.get h = .ok stats ∧ stats.Pairwise fun st s => st.eq s = false

theorem listsDistinct_iff_of_get {h : Host} {stats : List Stat} (hget : Stat.get h = .ok stats) :
    ListsDistinct h ↔ stats.Pairwise fun st s => st.eq s = false := by
  constructor
  · rintro ⟨stats', hget', hdistinct⟩
    obtain rfl : stats' = stats := Except.ok.inj (hget'.symm.trans hget)
    exact hdistinct
  · intro hdistinct
    exact ⟨stats, hget, hdistinct⟩

/-- **When the listing keeps all disks apart**: when no two of one major number have minor numbers
that differ by a multiple of 65536. -/
theorem listing_distinct_iff (h : Host) (rs : List Record) (lines : List String)
    (hfile : h.lines "/proc/diskstats" = .ok lines) (hlist : Listing rs lines) :
    ListsDistinct h ↔
      rs.Pairwise fun r s => ¬ (r.major = s.major ∧ r.minor ≡ s.minor [MOD 65536]) := by
  rw [listsDistinct_iff_of_get (get_listing hfile hlist), List.pairwise_map]
  simp only [← Record.stat_eq_iff, Bool.not_eq_true]

/-- A disk with many partitions between `nvme0` and it. -/
def nvme1 : Record where
  __ := nvme0
  minor := 65536
  minor_lt := by omega
  name := "nvme1n1"
  name_ne := by decide
  name_word := by simp [isspace]

theorem listing_distinct_sda_nvme :
    ListsDistinct (withLines Host.bare [sda 7, nvme0]) ↔
      [sda 7, nvme0].Pairwise fun r s =>
        ¬ (r.major = s.major ∧ r.minor ≡ s.minor [MOD 65536]) :=
  listing_distinct_iff _ _ _ rfl (listing_map_line [sda 7, nvme0])

/-- The second minor number does not fit its field, and leaves the 0 of the first. -/
theorem not_listsDistinct_nvme :
    ([nvme0, nvme1].Pairwise fun r s => ¬ (r.major = s.major ∧ r.minor = s.minor)) ∧
      ¬ ListsDistinct (withLines Host.bare [nvme0, nvme1]) := by
  constructor
  · simp [nvme0, nvme1, sda]
  · rw [listsDistinct_iff_of_get (get_listing rfl (listing_map_line [nvme0, nvme1]))]
    intro hdistinct
    have hpair : nvme0.stat.eq nvme1.stat = false := by simpa using hdistinct
    rw [(Record.stat_eq_iff (r := nvme0) (s := nvme1)).mpr ⟨rfl, rfl⟩] at hpair
    cases hpair

end SysInfo.Storage
