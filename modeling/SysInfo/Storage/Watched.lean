import SysInfo.Storage.Grammar
import SysInfo.Storage.Monitor
import SysInfo.Storage.Names
import SysInfo.Storage.Speed

/-!
# What is watched

    /proc/diskstats ──get──▶ Stat ──push_back──▶ Data ──refresh──▶ Stat(name())

Every element of the controller can be traced back to a line that a construction has read, of a disk
that was physical then. On its way back through `Stat(const char *)` its name is never taken for the
empty one, which stands for all disks (`watched_disks_are_disks`). And as a tick starts from what
was stored at the insertion, the speeds it works out are those of counters that start from zero
(`tick_speeds`).
-/

namespace SysInfo.Storage

open Lib (ExactFloat)
open Lib.CScan Lib.CString
open Lib.FirstOccurrence (DecEquiv)

variable {τ : Type} {same : DecEquiv String} {M : TimerApi τ}

/-- The element was made of a physical disk that a construction has listed. -/
def Traced (events : List Event) (d : Data) : Prop :=
  ∃ h node listing st, .construct h node ∈ events ∧ Stat.get h = .ok listing ∧ st ∈ listing ∧
    st.physical h = true ∧ Data.ofStat h st = .ok d

/-- So are they all, after any history. -/
theorem traced_history (t : τ) (events : List Event) :
    ∀ d ∈ (history same M { timer := t } events).disks, Traced events d := by
  apply disks_history (P := Traced events) events
  · intro h node listing hevent hget unit hunit hp d hd
    exact ⟨h, node, listing, unit, hevent, hget, hunit, hp, hd⟩
  · intro d hd
    cases hd

/-- What was listed has a name, and no NUL in it. -/
theorem Traced.cstr_device {events : List Event} {d : Data} (hd : Traced events d) :
    cstr d.device = d.device.toList ∧ d.device.toList ≠ [] := by
  obtain ⟨h, node, listing, st, -, hget, hst, -, hd⟩ := hd
  obtain ⟨lines, -, hmap⟩ := Lib.bind_eq_ok_iff.mp hget
  obtain ⟨line, -, hline⟩ := Lib.exists_of_mem_mapM hmap hst
  have hreads : Reads (cstr line) st := ofLine_ok_iff.mp hline
  rw [Controller.ofStat_device hd]
  constructor
  · apply cstr_eq_toList
    intro c hc
    exact toNat_ne_zero_of_mem_cstr (hreads.mem_of_mem_device hc)
  · obtain ⟨c, cs, hdevice, -⟩ := hreads.device_begins
    rw [hdevice]
    exact List.cons_ne_nil c cs

/-- **What is watched are disks**, after any history of the process: each element was made of a
physical disk that some construction has listed, with the block size it had then; and on any machine
the object that a refresh builds from its name is one that was loaded for one disk, of the same name
unless there is a slash in it, and never the sum over all disks. -/
theorem watched_disks_are_disks (same : DecEquiv String) (M : TimerApi τ) (t : τ)
    (events : List Event) :
    ∀ d ∈ (history same M { timer := t } events).disks, Traced events d ∧
      ∃ device, device ≠ "" ∧ ('/' ∉ d.device.toList → device = d.device) ∧
        ∀ h, Stat.ofName h d.device =
          match (Stat.load h).run { device := device } with
          | .ok _ st => .ok st
          | .error e _ => .error e := by
  intro d hd
  have htraced : Traced events d := traced_history t events d hd
  obtain ⟨hcstr, hchars⟩ := htraced.cstr_device
  have hempty : cstr d.device ≠ [] := by rwa [hcstr]
  obtain ⟨device, hname, hne⟩ := exists_nameFactory hempty false
  refine ⟨htraced, device, hne, ?_, fun h => ofName_named hname hne⟩
  intro hslash
  rw [nameFactory_of_notMem hempty (by rwa [hcstr]), hcstr, String.ofList_toList] at hname
  exact (Except.ok.inj hname).symm

theorem names_twoTries :
    (history (DecEquiv.eq String) plainTimer { timer := (0, false) } twoTries).names =
      ["sr0", "sda"] := by
  have habs := abs_history (DecEquiv.eq String) plainTimer_lawful (0, false) twoTries
  rw [view_twoTries] at habs
  generalize history (DecEquiv.eq String) plainTimer { timer := (0, false) } twoTries = c at habs ⊢
  have hwatched : c.names = _ := congrArg Monitor.watched habs
  rw [hwatched]
  decide

/-- The disk behind the drive. -/
theorem watched_disks_are_disks_twoTries :
    ∃ d ∈ (history (DecEquiv.eq String) plainTimer { timer := (0, false) } twoTries).disks,
      d.device = "sda" ∧ Traced twoTries d ∧
        ∃ device, device ≠ "" ∧ ('/' ∉ d.device.toList → device = d.device) ∧
          ∀ h, Stat.ofName h d.device =
            match (Stat.load h).run { device := device } with
            | .ok _ st => .ok st
            | .error e _ => .error e := by
  have hnames := names_twoTries
  have hall := watched_disks_are_disks (DecEquiv.eq String) plainTimer (0, false) twoTries
  generalize history (DecEquiv.eq String) plainTimer { timer := (0, false) } twoTries = c
    at hnames hall ⊢
  have hsda : "sda" ∈ c.disks.map (·.device) := by
    rw [Controller.names] at hnames
    rw [hnames]
    exact List.mem_cons_of_mem _ (List.mem_singleton.mpr rfl)
  obtain ⟨d, hd, hname⟩ := List.mem_map.mp hsda
  refine ⟨d, hd, hname, ?_⟩
  exact hall d hd

/-! ## What a tick works out -/

/-- What a tick makes of a watched disk, in exact arithmetic: the text of the exception and no speed
when it cannot be read. Otherwise, when `T'` milliseconds have really been spent, of which the clock
of the kernel has what is left of 32 bits, it is all blocks over what the clock has; and this is the
rate in bytes since an earlier moment, with `B` sectors and `T` milliseconds, when `SameRate` says
so. The moment with none of either is the one the counters start at. -/
def WorkedOut (d d' : Data) : Except Exception Stat → Prop
  | .error e => d'.error = e.what ∧ ∀ dir, d'.speed dir = .fin 0
  | .ok s' => d'.error = "" ∧ ∀ dir T', (s'.transfer dir).time.toNat = T' % 2 ^ 32 →
      d'.speed dir =
        .fin (Data.rate d.blocksize 0 (s'.transfer dir).blocks.toNat 0 (T' % 2 ^ 32)) ∧
      ∀ B T, (d'.speed dir = .fin (Data.rate 512 B (s'.transfer dir).blocks.toNat T T') ↔
        Data.SameRate d.blocksize B (s'.transfer dir).blocks.toNat (T' % 2 ^ 32) T T')

theorem workedOut_ticked {h : Host} {st : Stat} {d : Data} (hd : Data.ofStat h st = .ok d)
    (reading : Except Exception Stat) : WorkedOut d (d.ticked reading) reading := by
  cases reading with
  | error e =>
    refine ⟨rfl, ?_⟩
    intro dir
    obtain ⟨n, -, rfl⟩ := Data.ofStat_eq_ok_iff.mp hd
    cases dir <;> rfl
  | ok s' =>
    refine ⟨rfl, ?_⟩
    intro dir T' hT'
    -- nothing has been saved, so this is the first sample however many ticks there were
    have hspeed : (d.ticked (.ok s')).speed dir =
        .fin (Data.rate d.blocksize 0 (s'.transfer dir).blocks.toNat 0 (T' % 2 ^ 32)) := by
      rw [Data.ticked_ok_speed, ← Data.attempt_ok_speed, ← hT']
      exact Data.speed_run_first hd (show Data.successes [] = [] from rfl) dir
    refine ⟨hspeed, ?_⟩
    intro B T
    rw [hspeed, ExactFloat.fin.injEq]
    exact Data.rate_zero_eq_sectors_iff

/-- **What a tick works out**, at any time in the life of a process and whatever the ticks before it
have seen: for each watched disk in its place, its counters taken from zero, as if there had been no
tick before. -/
theorem tick_speeds (same : DecEquiv String) (M : TimerApi τ) (t : τ) (events : List Event)
    (statOf : Tick) :
    let c := history same M { timer := t } events
    (c.onTimer statOf).2.length = c.disks.length ∧
      ∀ i d, c.disks[i]? = some d → ∃ d', (c.onTimer statOf).2[i]? = some d' ∧
        d'.device = d.device ∧ d'.blocksize = d.blocksize ∧
          WorkedOut d d' (statOf i d.device) := by
  intro c
  rw [onTimer_copy]
  refine ⟨List.length_mapIdx, ?_⟩
  intro i d hi
  obtain ⟨h, node, listing, st, -, -, -, -, hd⟩ :=
    traced_history t events d (List.mem_of_getElem? hi)
  refine ⟨d.ticked (statOf i d.device), ?_, ?_, ?_, workedOut_ticked hd _⟩
  · rw [List.getElem?_mapIdx, hi, Option.map_some]
  · cases statOf i d.device <;> rfl
  · cases statOf i d.device <;> rfl

/-- The second disk, at a tick after the clock of the kernel has gone round: 1000 sectors took it
500 milliseconds more than 49.7 days. -/
theorem tick_speeds_twoTries :
    let c := history (DecEquiv.eq String) plainTimer { timer := (0, false) } twoTries
    ∃ d d', c.disks[1]? = some d ∧
      (c.onTimer fun _ _ => .ok { read := { blocks := 1000, time := 500 } }).2[1]? = some d' ∧
      d'.device = "sda" ∧ d'.error = "" ∧
        d'.speed .read = .fin (Data.rate d.blocksize 0 1000 0 500) ∧
        (d'.speed .read = .fin (Data.rate 512 0 1000 0 (2 ^ 32 + 500)) ↔
          Data.SameRate d.blocksize 0 1000 500 0 (2 ^ 32 + 500)) := by
  intro c
  have hnames : c.names = ["sr0", "sda"] := names_twoTries
  have htick := (tick_speeds (DecEquiv.eq String) plainTimer (0, false) twoTries
    fun _ _ => .ok { read := { blocks := 1000, time := 500 } }).2
  change ∀ i d, c.disks[i]? = some d → _ at htick
  have hsda : (c.disks.map (·.device))[1]? = some "sda" := by
    rw [← Controller.names, hnames]
    rfl
  rw [List.getElem?_map, Option.map_eq_some_iff] at hsda
  obtain ⟨d, hd, hdevice⟩ := hsda
  obtain ⟨d', hd', hsame, -, herror, hworked⟩ := htick 1 d hd
  obtain ⟨hspeed, hrate⟩ := hworked .read (2 ^ 32 + 500) rfl
  exact ⟨d, d', hd, hd', hsame.trans hdevice, herror, hspeed, hrate 0 0⟩

end SysInfo.Storage
