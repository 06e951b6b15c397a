import Mathlib.Data.UInt
import SysInfo.Host
import SysInfo.Lib.Tally

/-!
# `System::Stat`: the ticks of the CPU

    kernel:   run of ticks ──snapshot──▶ ten counters
    library:  two snapshots ──operator-=──▶ Stat ──total, getUsage, getRunning──▶ sums

The counters of the kernel overlap: a tick spent running a guest is charged to `guest` and to `user`
as well, one for a niced guest to `guest_nice` and to `nice`. The three sums take the ten fields as
if they were disjoint, so guest ticks are in them twice (`counts_once_iff`).
-/

namespace SysInfo.System

open Lib (tally tally_append sum_tally)
open Lib.CString (strcaseeq)

/-- `System::Stat`. -/
structure Stat where
  user : UInt64 := 0
  nice : UInt64 := 0
  system : UInt64 := 0
  idle : UInt64 := 0
  iowait : UInt64 := 0
  irq : UInt64 := 0
  softirq : UInt64 := 0
  steal : UInt64 := 0
  guest : UInt64 := 0
  guestNice : UInt64 := 0
  deriving DecidableEq, Repr

/-- `System::Stat::Type`. -/
inductive StatType where
  | user | nice | system | idle | iowait | irq | softirq | steal | guest | guestNice
  | total
  deriving DecidableEq, Repr

/-- The table `typenames`. -/
def typenames : List (String × StatType) :=
  [("user", .user), ("nice", .nice), ("system", .system), ("idle", .idle), ("iowait", .iowait),
   ("irq", .irq), ("softirq", .softirq), ("steal", .steal), ("guest", .guest),
   ("guest_nice", .guestNice), ("total", .total)]

/-- `TypeFactory(const char *)`. -/
def typeFactory (name : String) : Except Exception StatType :=
  match typenames.find? fun entry => strcaseeq name entry.1 with
  | some entry => .ok entry.2
  | none =>
    if strcaseeq name "total" then .ok .total
    else .error (.runtimeError ("Unexpected property name '" ++ name ++ "'"))

/-- The types in front of `TOTAL`, one for each field. -/
def StatType.fields : List StatType :=
  [.user, .nice, .system, .idle, .iowait, .irq, .softirq, .steal, .guest, .guestNice]

namespace Stat

/-- `total()`. -/
def total (st : Stat) : UInt64 :=
  st.user + st.nice + st.system + st.idle + st.iowait + st.irq + st.softirq + st.steal + st.guest +
    st.guestNice

/-- `getUsage()`. -/
def getUsage (st : Stat) : UInt64 :=
  st.user + st.nice + st.system + st.idle + st.iowait + st.irq + st.softirq + st.steal + st.guest +
    st.guestNice

/-- `getRunning()`. -/
def getRunning (st : Stat) : UInt64 :=
  st.user + st.nice + st.system + st.iowait + st.irq + st.softirq + st.steal + st.guest +
    st.guestNice

/-- `operator[](const Type)`. -/
def get (st : Stat) : StatType → UInt64
  | .user => st.user
  | .nice => st.nice
  | .system => st.system
  | .idle => st.idle
  | .iowait => st.iowait
  | .irq => st.irq
  | .softirq => st.softirq
  | .steal => st.steal
  | .guest => st.guest
  | .guestNice => st.guestNice
  | .total => st.total

/-- `operator[](const char *)`. -/
def getByName (st : Stat) (name : String) : Except Exception UInt64 := do
  return st.get (← typeFactory name)

/-- `operator-=`. -/
def sub (st stat : Stat) : Stat where
  user := st.user - stat.user
  nice := st.nice - stat.nice
  system := st.system - stat.system
  idle := st.idle - stat.idle
  iowait := st.iowait - stat.iowait
  irq := st.irq - stat.irq
  softirq := st.softirq - stat.softirq
  steal := st.steal - stat.steal
  guest := st.guest - stat.guest
  guestNice := st.guestNice - stat.guestNice

end Stat

/-! ## How the kernel accounts -/

/-- What the CPU is doing at a tick. -/
inductive Tick where
  | user | nice | system | idle | iowait | irq | softirq | steal
  | guest | guestNice
  deriving DecidableEq, Repr

/-- The counters a tick increments. -/
def Tick.charges : Tick → List StatType
  | .user => [.user]
  | .nice => [.nice]
  | .system => [.system]
  | .idle => [.idle]
  | .iowait => [.iowait]
  | .irq => [.irq]
  | .softirq => [.softirq]
  | .steal => [.steal]
  | .guest => [.user, .guest]
  | .guestNice => [.nice, .guestNice]

/-- The tick is one of a guest. -/
def Tick.forGuest : Tick → Bool
  | .guest | .guestNice => true
  | _ => false

/-- The object that is read after a run of ticks. -/
def snapshot (run : List Tick) : Stat where
  user := .ofNat (tally Tick.charges run .user)
  nice := .ofNat (tally Tick.charges run .nice)
  system := .ofNat (tally Tick.charges run .system)
  idle := .ofNat (tally Tick.charges run .idle)
  iowait := .ofNat (tally Tick.charges run .iowait)
  irq := .ofNat (tally Tick.charges run .irq)
  softirq := .ofNat (tally Tick.charges run .softirq)
  steal := .ofNat (tally Tick.charges run .steal)
  guest := .ofNat (tally Tick.charges run .guest)
  guestNice := .ofNat (tally Tick.charges run .guestNice)

/-- Unsigned subtraction of two readings of a counter is the reading of what came between them. -/
theorem ofNat_add_sub (m n : ℕ) : UInt64.ofNat (m + n) - UInt64.ofNat m = UInt64.ofNat n := by
  rw [UInt64.ofNat_add, add_sub_cancel_left]

/-- **The difference of two snapshots** is the snapshot of the ticks between them. -/
theorem snapshot_sub (run mid : List Tick) :
    (snapshot (run ++ mid)).sub (snapshot run) = snapshot mid := by
  simp only [snapshot, Stat.sub, tally_append, ofNat_add_sub]

/-! ## The sums -/

/-- Over all fields a tick counts once, and once more when it is one of a guest. -/
theorem sum_fields (run : List Tick) :
    (StatType.fields.map (tally Tick.charges run)).sum =
      run.length + run.countP Tick.forGuest := by
  rw [sum_tally]
  induction run with
  | nil => rfl
  | cons t run ih =>
    have ht : (StatType.fields.map fun k => t.charges.count k).sum =
        1 + if t.forGuest then 1 else 0 := by
      cases t <;> rfl
    rw [List.map_cons, List.sum_cons, ih, ht, List.length_cons, List.countP_cons]
    omega

/-- Without the idle counter, idle ticks do not count. -/
theorem sum_running (run : List Tick) :
    ((StatType.fields.erase .idle).map (tally Tick.charges run)).sum =
      run.countP (· ≠ .idle) + run.countP Tick.forGuest := by
  rw [sum_tally]
  induction run with
  | nil => rfl
  | cons t run ih =>
    have ht : ((StatType.fields.erase .idle).map fun k => t.charges.count k).sum =
        (if t ≠ .idle then 1 else 0) + if t.forGuest then 1 else 0 := by
      cases t <;> rfl
    rw [List.map_cons, List.sum_cons, ih, ht, List.countP_cons, List.countP_cons]
    simp only [decide_eq_true_eq]
    omega

theorem total_snapshot (run : List Tick) :
    (snapshot run).total = .ofNat (run.length + run.countP Tick.forGuest) := by
  rw [← sum_fields]
  simp [snapshot, Stat.total, StatType.fields, ← UInt64.ofNat_add, Nat.add_assoc]

theorem getRunning_snapshot (run : List Tick) :
    (snapshot run).getRunning =
      .ofNat (run.countP (· ≠ .idle) + run.countP Tick.forGuest) := by
  have hfields : StatType.fields.erase .idle =
      [.user, .nice, .system, .iowait, .irq, .softirq, .steal, .guest, .guestNice] := rfl
  rw [← sum_running, hfields]
  simp [snapshot, Stat.getRunning, ← UInt64.ofNat_add, Nat.add_assoc]

/-- What the sums are for: the number of ticks, and of those that were not idle. -/
def CountsOnce (st : Stat) (ticks : List Tick) : Prop :=
  st.getUsage.toNat = ticks.length ∧ (st.get .total).toNat = ticks.length ∧
    st.getRunning.toNat = ticks.countP (· ≠ .idle)

/-- **When every tick is counted once**: between two snapshots without guest ticks in between, as
long as their number fits the type of the result. -/
theorem counts_once_iff (run mid : List Tick) :
    CountsOnce ((snapshot (run ++ mid)).sub (snapshot run)) mid ↔
      mid.length < 2 ^ 64 ∧ ∀ t ∈ mid, t.forGuest = false := by
  have htotal : (snapshot mid).total.toNat =
      (mid.length + mid.countP Tick.forGuest) % 2 ^ 64 := by
    rw [total_snapshot]
    exact UInt64.toNat_ofNat'
  have hrunning : (snapshot mid).getRunning.toNat =
      (mid.countP (· ≠ .idle) + mid.countP Tick.forGuest) % 2 ^ 64 := by
    rw [getRunning_snapshot]
    exact UInt64.toNat_ofNat'
  have hguests : mid.countP Tick.forGuest = 0 ↔ ∀ t ∈ mid, t.forGuest = false := by
    simp [List.countP_eq_zero]
  have hle : mid.countP Tick.forGuest ≤ mid.length := List.countP_le_length
  have hidle : mid.countP (· ≠ .idle) ≤ mid.length := List.countP_le_length
  rw [snapshot_sub, ← hguests]
  show ((snapshot mid).total.toNat = _ ∧ (snapshot mid).total.toNat = _ ∧ _) ↔ _
  rw [htotal, hrunning]
  constructor
  · rintro ⟨husage, -, -⟩
    -- a sum that is cut to 64 bits and still the number of ticks was not cut
    have hlt := Nat.mod_lt (mid.length + mid.countP Tick.forGuest) (show 0 < 2 ^ 64 by omega)
    omega
  · rintro ⟨hlt, hzero⟩
    rw [hzero, Nat.add_zero, Nat.add_zero]
    rw [Nat.mod_eq_of_lt hlt, Nat.mod_eq_of_lt (hidle.trans_lt hlt)]
    exact ⟨rfl, rfl, rfl⟩

/-- One tick of a guest counts as two. -/
theorem not_counts_once_guest :
    ¬ CountsOnce ((snapshot [.user, .guest]).sub (snapshot [.user])) [.guest] := by
  intro honce
  exact absurd honce.1 (by decide)

end SysInfo.System
