import SysInfo.Storage.Total

/-!
# Logical and physical disks

`logical()` looks at the device number of an object, `physical()` at what `/sys/block` has under its
name. The numbers say little: a whole disk has minor number 0 only when it is the first of its bus
(`kinds_apart_iff`).
-/

namespace SysInfo.Storage

open Lib.CScan Lib.CString

/-- An object is logical when its line has a major number, and a minor number that leaves something
in the field. -/
theorem Record.logical_stat_iff (r : Record) :
    r.stat.logical = true ↔ ¬ (r.major = 0 ∨ 65536 ∣ r.minor) := by
  have hmajor : r.stat.major = 0 ↔ r.major = 0 := by
    rw [← UInt16.toNat_inj, r.stat_major]
    rfl
  have hminor : r.stat.minor = 0 ↔ 65536 ∣ r.minor := by
    rw [← UInt16.toNat_inj, r.stat_minor, Nat.dvd_iff_mod_eq_zero]
    rfl
  rw [Stat.logical, Bool.and_eq_true, bne_iff_ne, bne_iff_ne, ne_eq, ne_eq, hmajor, hminor, not_or]

/-- It is physical when `/sys/block` leads its name to a path without `virtual` in it. -/
theorem Record.physical_iff {h : Host} {r : Record} :
    r.physical h = true ↔
      ∃ path, h.realpath ("/sys/block/" ++ r.name) = some path ∧
        strstr path.toList "virtual".toList = false := by
  rw [Record.physical, Stat.physical, r.stat_device]
  cases h.realpath ("/sys/block/" ++ r.name) with
  | none => simp
  | some path => simp

/-- What the two questions are for: no listed object is both. -/
def KindsApart (h : Host) : Prop :=
  ∃ stats, Stat.get h = .ok stats ∧
    ∀ st ∈ stats, ¬ (st.logical = true ∧ st.physical h = true)

theorem kindsApart_iff_of_get {h : Host} {rs : List Record}
    (hget : Stat.get h = .ok (rs.map Record.stat)) :
    KindsApart h ↔ ∀ r ∈ rs, r.physical h = true → r.major = 0 ∨ 65536 ∣ r.minor := by
  have hkinds : (∀ st ∈ rs.map Record.stat, ¬ (st.logical = true ∧ st.physical h = true)) ↔
      ∀ r ∈ rs, r.physical h = true → r.major = 0 ∨ 65536 ∣ r.minor := by
    rw [List.forall_mem_map]
    apply forall₂_congr
    intro r _
    rw [r.logical_stat_iff]
    show ¬ (_ ∧ r.physical h = true) ↔ _
    tauto
  rw [← hkinds]
  constructor
  · intro hkinds
    obtain ⟨stats, hstats, hapart⟩ := hkinds
    obtain rfl : stats = rs.map Record.stat := Except.ok.inj (hstats.symm.trans hget)
    exact hapart
  · intro hapart
    exact ⟨_, hget, hapart⟩

/-- **When no listed disk is both logical and physical**: when every listed name that `/sys/block`
leads to a path without `virtual` has major number 0, or a minor number that is a multiple of 65536,
such as 0. -/
theorem kinds_apart_iff (h : Host) (rs : List Record) (lines : List String)
    (hfile : h.lines "/proc/diskstats" = .ok lines) (hlist : Listing rs lines) :
    KindsApart h ↔
      ∀ r ∈ rs, ∀ path, h.realpath ("/sys/block/" ++ r.name) = some path →
        strstr path.toList "virtual".toList = false → r.major = 0 ∨ 65536 ∣ r.minor := by
  rw [kindsApart_iff_of_get (get_listing hfile hlist)]
  apply forall₂_congr
  intro r _
  rw [Record.physical_iff]
  constructor
  · intro hapart path hpath hvirtual
    exact hapart ⟨path, hpath, hvirtual⟩
  · intro hapart hphysical
    obtain ⟨path, hpath, hvirtual⟩ := hphysical
    exact hapart path hpath hvirtual

/-- The only disk of the machine is the first of its bus. -/
theorem kinds_apart_sda :
    KindsApart withSda ↔
      ∀ r ∈ [sda 7], ∀ path, withSda.realpath ("/sys/block/" ++ r.name) = some path →
        strstr path.toList "virtual".toList = false → r.major = 0 ∨ 65536 ∣ r.minor :=
  kinds_apart_iff withSda _ _ rfl listing_sda

/-- The first partition of the first disk, -/
def sda1 : Record where
  __ := sda 7
  minor := 1
  minor_lt := by omega
  name := "sda1"
  name_ne := by decide
  name_word := by simp [isspace]

/-- and the second disk. -/
def sdb : Record where
  __ := sda 7
  minor := 16
  minor_lt := by omega
  name := "sdb"
  name_ne := by decide
  name_word := by simp [isspace]

/-- A machine with both disks, and one partition. -/
def withSdb : Host where
  __ := withLines Host.bare [sda 7, sda1, sdb]
  realpath path :=
    if path = "/sys/block/sda" then some "/sys/devices/pci0000:00/block/sda"
    else if path = "/sys/block/sdb" then some "/sys/devices/pci0000:00/block/sdb"
    else none

/-- `/sys/block` has the whole disks only, and the second one is taken for a logical disk, too. -/
theorem not_kindsApart_sdb :
    (∀ r ∈ [sda 7, sda1, sdb], withSdb.realpath ("/sys/block/" ++ r.name) ≠ none →
      16 ∣ r.minor) ∧ ¬ KindsApart withSdb := by
  refine ⟨?_, ?_⟩
  · decide
  · have hget : Stat.get withSdb = .ok ([sda 7, sda1, sdb].map Record.stat) :=
      get_listing rfl (listing_map_line [sda 7, sda1, sdb])
    rw [kindsApart_iff_of_get hget]
    intro hapart
    have hphysical : sdb.physical withSdb = true := by
      rw [Record.physical_iff]
      exact ⟨_, rfl, by decide⟩
    have hnumbers := hapart sdb (by simp) hphysical
    exact absurd hnumbers (by decide)

end SysInfo.Storage
