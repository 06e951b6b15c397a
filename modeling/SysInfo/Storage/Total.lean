import SysInfo.Lib.Selection
import SysInfo.Storage.KernelFormat

/-!
# The nameless `Stat`

`Storage::Stat("")` adds up lines of `/proc/diskstats`, in any order (`nameless_perm`). It takes the
lines whose major number is `BLOCK_EXT_MAJOR`; what it is for is the sum over the physical disks.
The two are the same sum for some files, and the same selection for some machines
(`total_physical_iff`).
-/

namespace SysInfo.Storage

open Lib (total)
open Lib.CScan

/-- An object that stands for no disk. -/
def Stat.Nameless (st : Stat) : Prop := st.device = "" ∧ st.major = 0 ∧ st.minor = 0

theorem Stat.nameless_add (st s : Stat) : (st.add s).Nameless := ⟨rfl, rfl, rfl⟩

theorem addLine_ok {st : Stat} {line : String} {s : Stat} (hline : Stat.ofLine line = .ok s) :
    Stat.addLine st line = .ok (if s.major = Stat.blockExtMajor then st.add s else st) := by
  rw [Stat.addLine, hline]
  rfl

/-- Adding lines up gives no object an identity, whatever the lines are. -/
theorem nameless_of_foldlM_addLine {lines : List String} {st st' : Stat} (hst : st.Nameless)
    (hok : lines.foldlM Stat.addLine st = .ok st') : st'.Nameless := by
  induction lines generalizing st with
  | nil =>
    obtain rfl : st = st' := Except.ok.inj hok
    exact hst
  | cons line lines ih =>
    rw [List.foldlM_cons] at hok
    obtain ⟨st₁, hadd, hrest⟩ := Lib.bind_eq_ok_iff.mp hok
    obtain ⟨s, hline, -⟩ := Lib.bind_eq_ok_iff.mp hadd
    rw [addLine_ok hline] at hadd
    obtain rfl := Except.ok.inj hadd
    apply ih _ hrest
    split
    · exact st.nameless_add s
    · exact hst

/-! ## What is added up -/

/-- The line of the record is taken by the nameless object. -/
def Record.extended (r : Record) : Bool := decide (r.major = 259)

/-- The record is one of a physical disk. -/
def Record.physical (h : Host) (r : Record) : Bool := r.stat.physical h

theorem addLine_line (st : Stat) (r : Record) :
    Stat.addLine st r.line = .ok (if r.extended then st.add r.stat else st) := by
  have hmajor : r.stat.major = Stat.blockExtMajor ↔ r.extended = true := by
    rw [Record.extended, decide_eq_true_iff, ← r.stat_major, ← UInt16.toNat_inj]
    rfl
  rw [addLine_ok r.ofLine_line]
  simp only [hmajor]

/-- **What the nameless object adds up**: the lines it takes, in every counter up to the width of
the field. -/
theorem foldlM_addLine (rs : List Record) (st : Stat) :
    ∃ st', (rs.map Record.line).foldlM Stat.addLine st = .ok st' ∧
      ∀ k, st'.counter k =
        (st.counter k + total Record.extended (fun r => r.counter k) rs) % 2 ^ k.width := by
  induction rs generalizing st with
  | nil =>
    refine ⟨st, rfl, fun k => ?_⟩
    rw [Lib.total_nil, Nat.add_zero, Nat.mod_eq_of_lt (st.counter_lt k)]
  | cons r rs ih =>
    obtain ⟨st', hrun, hcounter⟩ := ih (if r.extended then st.add r.stat else st)
    refine ⟨st', ?_, fun k => ?_⟩
    · rw [List.map_cons, List.foldlM_cons, addLine_line]
      exact hrun
    · rw [hcounter, Lib.total_cons]
      cases r.extended with
      | false => simp
      | true =>
        simp only [↓reduceIte, Stat.counter_add, r.stat_counter]
        rw [Nat.mod_add_mod, Nat.add_assoc]

/-- **The nameless object of a file**: no identity, and in every counter the sum over the lines it
takes. -/
theorem ofName_nameless {h : Host} {rs : List Record} {lines : List String}
    (hfile : h.lines "/proc/diskstats" = .ok lines) (hlist : Listing rs lines) :
    ∃ st, Stat.ofName h "" = .ok st ∧ st.Nameless ∧
      ∀ k, st.counter k = total Record.extended (fun r => r.counter k) rs % 2 ^ k.width := by
  obtain ⟨st, hrun, hcounter⟩ := foldlM_addLine rs {}
  refine ⟨st, ?_, nameless_of_foldlM_addLine ⟨rfl, rfl, rfl⟩ hrun, fun k => ?_⟩
  · rw [← hlist] at hrun
    have hname : Device.nameFactory "" false = .ok "" := by decide
    simp only [Stat.ofName, hname, hfile, rethrow]
    exact hrun
  · rw [hcounter]
    have hzero : ({} : Stat).counter k = 0 := by cases k <;> rfl
    rw [hzero, Nat.zero_add]

/-! ## The order of the lines -/

/-- Another order of the lines is another order of the devices. -/
theorem Listing.exists_perm {rs : List Record} {lines lines' : List String}
    (hlist : Listing rs lines) (hperm : lines.Perm lines') :
    ∃ rs', Listing rs' lines' ∧ rs'.Perm rs := by
  have hfilter : (lines'.filter (· ≠ "")).Perm (rs.map Record.line) := by
    rw [← hlist]
    exact hperm.symm.filter _
  have hcomp := congrFun (congrFun (List.eq_map_comp_perm Record.line) (lines'.filter (· ≠ ""))) rs
  exact hcomp.mpr hfilter

/-- **The nameless object does not depend on the order of the lines**: one object for both files,
with no identity, and in every counter the sum over the lines it takes, within the width of the
field. -/
theorem nameless_perm (h h' : Host) (rs : List Record) (lines lines' : List String)
    (hfile : h.lines "/proc/diskstats" = .ok lines) (hlist : Listing rs lines)
    (hfile' : h'.lines "/proc/diskstats" = .ok lines') (hperm : lines.Perm lines') :
    ∃ st, Stat.ofName h "" = .ok st ∧ Stat.ofName h' "" = .ok st ∧
      (∀ k, st.counter k = total Record.extended (fun r => r.counter k) rs % 2 ^ k.width) ∧
      st.device = "" ∧ st.major = 0 ∧ st.minor = 0 := by
  obtain ⟨rs', hlist', hrs⟩ := hlist.exists_perm hperm
  obtain ⟨st, hrun, hnameless, hcounter⟩ := ofName_nameless hfile hlist
  obtain ⟨st', hrun', hnameless', hcounter'⟩ := ofName_nameless hfile' hlist'
  -- an object is its identity and its fifteen counters, and sums do not depend on the order
  have hsame : st' = st := by
    apply Stat.ext_counter (hnameless'.1.trans hnameless.1.symm)
      (hnameless'.2.1.trans hnameless.2.1.symm) (hnameless'.2.2.trans hnameless.2.2.symm)
    intro k
    rw [hcounter, hcounter', Lib.total_perm hrs]
  exact ⟨st, hrun, hsame ▸ hrun', hcounter, hnameless⟩

theorem listing_map_line (rs : List Record) : Listing rs (rs.map Record.line) := by
  simp [Listing, List.filter_map, Function.comp_def, Record.line_ne]

/-- A solid state disk. -/
def nvme0 : Record where
  __ := sda 7
  major := 259
  major_lt := by omega
  name := "nvme0n1"
  name_ne := by decide
  name_word := by simp [isspace]

theorem nameless_perm_sda_nvme :
    ∃ st, Stat.ofName { Host.bare with lines := fun _ => .ok [(sda 7).line, nvme0.line] } "" =
        .ok st ∧
      Stat.ofName { Host.bare with lines := fun _ => .ok [nvme0.line, (sda 7).line] } "" = .ok st ∧
      (∀ k, st.counter k =
        total Record.extended (fun r => r.counter k) [sda 7, nvme0] % 2 ^ k.width) ∧
      st.device = "" ∧ st.major = 0 ∧ st.minor = 0 :=
  nameless_perm _ _ _ _ _ rfl (listing_map_line [sda 7, nvme0]) rfl (List.Perm.swap ..)

/-! ## The physical disks -/

/-- What the nameless object is for: in every counter the sum over the physical disks. -/
def TotalsPhysical (h : Host) (rs : List Record) : Prop :=
  ∃ st, Stat.ofName h "" = .ok st ∧
    ∀ k, st.counter k = total (Record.physical h) (fun r => r.counter k) rs % 2 ^ k.width

theorem totalsPhysical_iff {h : Host} {rs : List Record} {lines : List String}
    (hfile : h.lines "/proc/diskstats" = .ok lines) (hlist : Listing rs lines) :
    TotalsPhysical h rs ↔ ∀ k : Counter,
      total Record.extended (fun r => r.counter k) rs ≡
        total (Record.physical h) (fun r => r.counter k) rs [MOD 2 ^ k.width] := by
  obtain ⟨st, hrun, -, hcounter⟩ := ofName_nameless hfile hlist
  constructor
  · rintro ⟨st', hrun', hphysical⟩ k
    obtain rfl : st = st' := Except.ok.inj (hrun.symm.trans hrun')
    exact (hcounter k).symm.trans (hphysical k)
  · intro hall
    exact ⟨st, hrun, fun k => (hcounter k).trans (hall k)⟩

/-! ## The same disks with other counters -/

/-- Two records of one disk: only the counters may differ. -/
def Record.SameDisk (r r' : Record) : Prop :=
  r.major = r'.major ∧ r.minor = r'.minor ∧ r.name = r'.name

theorem Record.SameDisk.extended_eq {r r' : Record} (hsame : r.SameDisk r') :
    r'.extended = r.extended := by
  rw [Record.extended, Record.extended, hsame.1]

theorem Record.SameDisk.physical_eq {h h' : Host} {r r' : Record} (hsame : r.SameDisk r')
    (hpath : h'.realpath = h.realpath) : r'.physical h' = r.physical h := by
  simp only [Record.physical, Stat.physical, Record.stat_device, hsame.2.2, hpath]

/-- The disk with this number of completed reads, 0 or 1, and nothing else done. -/
def Record.withReads (r : Record) (reads : Fin 2) : Record where
  __ := r
  counter k := if k = .readCount then reads else 0
  counter_lt k := by
    cases k <;> grind [Counter.width]

theorem Record.sameDisk_withReads (r : Record) (reads : Fin 2) : r.SameDisk (r.withReads reads) :=
  ⟨rfl, rfl, rfl⟩

/-- The machine with these lines in its file. -/
def withLines (h : Host) (rs : List Record) : Host where
  __ := h
  lines _ := .ok (rs.map Record.line)

theorem totalsPhysical_withLines_iff (h : Host) (rs : List Record) :
    TotalsPhysical (withLines h rs) rs ↔ ∀ k : Counter,
      total Record.extended (fun r => r.counter k) rs ≡
        total (Record.physical (withLines h rs)) (fun r => r.counter k) rs [MOD 2 ^ k.width] :=
  totalsPhysical_iff rfl (listing_map_line rs)

/-- A file in which only one disk has done anything: one read. -/
theorem extended_eq_physical_of_totals {h : Host} {pre post : List Record} {r : Record}
    (hall : ∀ rs', List.Forall₂ Record.SameDisk (pre ++ r :: post) rs' →
      TotalsPhysical (withLines h rs') rs') : r.extended = r.physical h := by
  set idle := fun r : Record => r.withReads 0 with hidle
  have hsame : ∀ l : List Record, List.Forall₂ Record.SameDisk l (l.map idle) := by
    intro l
    rw [List.forall₂_map_right_iff, List.forall₂_same]
    exact fun r _ => r.sameDisk_withReads 0
  have htotals := hall (pre.map idle ++ r.withReads 1 :: post.map idle)
    (List.rel_append (hsame pre) (.cons (r.sameDisk_withReads 1) (hsame post)))
  rw [totalsPhysical_withLines_iff] at htotals
  have hreads := htotals .readCount
  have hzero : ∀ (p : Record → Bool) (l : List Record),
      total p (fun r => r.counter .readCount) (l.map idle) = 0 := by
    intro p l
    apply Lib.total_eq_zero
    intro a ha
    obtain ⟨b, -, rfl⟩ := List.mem_map.mp ha
    rfl
  simp only [Lib.total_append, Lib.total_cons, hzero, Nat.zero_add, Nat.add_zero] at hreads
  rw [(r.sameDisk_withReads 1).extended_eq, (r.sameDisk_withReads 1).physical_eq rfl] at hreads
  have hone : (r.withReads 1).counter .readCount = 1 := rfl
  rw [hone] at hreads
  -- one read weighs 1 on either side or 0, and the field is wide enough to tell
  have hweigh : ∀ a b : Bool, (if a then 1 else 0) ≡ (if b then 1 else 0)
      [MOD 2 ^ Counter.width .readCount] → a = b := by decide
  exact hweigh _ _ hreads

/-- Whether the two selections agree is a matter of the disks, not of their counters. -/
theorem extended_eq_physical_of_sameDisk {h h' : Host} {rs rs' : List Record}
    (hdisks : ∀ r ∈ rs, r.extended = r.physical h) (hpath : h'.realpath = h.realpath)
    (hsame : List.Forall₂ Record.SameDisk rs rs') :
    ∀ r' ∈ rs', r'.extended = r'.physical h' := by
  induction hsame with
  | nil =>
    intro r' hr'
    cases hr'
  | @cons r r' rs rs' hrr' _ ih =>
    intro x hx
    rcases List.mem_cons.mp hx with rfl | hx
    · rw [hrr'.extended_eq, hrr'.physical_eq hpath]
      exact hdisks r (by simp)
    · exact ih (fun r hr => hdisks r (List.mem_cons_of_mem _ hr)) x hx

/-- **When the nameless object covers the physical disks.** For one file: when, in every counter,
the lines of major 259 that are not of physical disks weigh as much as the physical disks of other
majors. On a machine, whatever its disks have done: when major 259 is what its physical disks have
and nothing else has. -/
theorem total_physical_iff (h : Host) (rs : List Record) (lines : List String)
    (hfile : h.lines "/proc/diskstats" = .ok lines) (hlist : Listing rs lines) :
    (TotalsPhysical h rs ↔ ∀ k : Counter,
      total (fun r => r.extended && !r.physical h) (fun r => r.counter k) rs ≡
        total (fun r => r.physical h && !r.extended) (fun r => r.counter k) rs
          [MOD 2 ^ k.width]) ∧
    ((∀ rs', List.Forall₂ Record.SameDisk rs rs' → TotalsPhysical (withLines h rs') rs') ↔
      ∀ r ∈ rs, r.extended = r.physical h) := by
  refine ⟨?_, ?_, ?_⟩
  · rw [totalsPhysical_iff hfile hlist]
    exact forall_congr' fun k => Lib.total_modEq_iff _ _ _ _ _
  · intro hall r hr
    obtain ⟨pre, post, rfl⟩ := List.append_of_mem hr
    exact extended_eq_physical_of_totals hall
  · intro hdisks rs' hsame
    rw [totalsPhysical_withLines_iff]
    intro k
    rw [Lib.total_congr]
    intro r' hr'
    exact extended_eq_physical_of_sameDisk hdisks rfl hsame r' hr'

/-- A machine whose only disk is a physical `sda`. -/
def withSda : Host where
  __ := Host.bare
  lines _ := .ok [(sda 7).line]
  realpath path := some ("/sys/devices/pci0000:00" ++ path)

theorem listing_sda : Listing [sda 7] [(sda 7).line] :=
  listing_map_line [sda 7]

theorem total_physical_sda :
    (∀ rs', List.Forall₂ Record.SameDisk [sda 7] rs' →
        TotalsPhysical (withLines withSda rs') rs') ↔
      ∀ r ∈ [sda 7], r.extended = r.physical withSda :=
  (total_physical_iff withSda _ _ rfl listing_sda).2

/-- The disk is left out, because its major number is 8. -/
theorem not_totalsPhysical_sda : ¬ TotalsPhysical withSda [sda 7] := by
  intro htotals
  have hphysical : (sda 7).physical withSda = true := by
    have hdevice : (sda 7).stat.device = "sda" := Record.stat_device _
    rw [Record.physical, Stat.physical, hdevice]
    decide
  have hreads := (totalsPhysical_iff rfl listing_sda).mp htotals .readCount
  simp only [Lib.total_cons, Lib.total_nil, hphysical] at hreads
  exact absurd hreads (by decide)

end SysInfo.Storage
