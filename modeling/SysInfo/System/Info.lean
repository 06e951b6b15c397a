import SysInfo.Agent.SwapUsage

/-!
# `System::Info`

    sysinfo ──▶ units ──× mem_unit──▶ Info               bytes
       └────────────────────────────▶ SwapUsage          (total - free) / total

The system answers in units of `mem_unit` bytes. `Info` multiplies them out within 64 bits, the
agent divides them by each other. In exact arithmetic the two have the same to say about the swap
space as long as nothing is cut off (`readers_agree_iff`).
-/

namespace SysInfo.System

open Agent (SwapUsage)
open Lib (ExactFloat)

/-- `struct sysinfo`, as far as it is read. -/
structure SysinfoReply where
  loads : Vector UInt64 3
  totalram : UInt64
  freeram : UInt64
  sharedram : UInt64
  bufferram : UInt64
  totalswap : UInt64
  freeswap : UInt64
  procs : UInt16
  memUnit : UInt32
  deriving DecidableEq

/-- `System::Info`. The constructor assigns no `uptime`. -/
structure Info where
  uptime : Option ℤ := none
  loads : Vector UInt64 3
  totalram : UInt64
  freeram : UInt64
  sharedram : UInt64
  bufferram : UInt64
  totalswap : UInt64
  freeswap : UInt64
  procs : UInt16
  deriving DecidableEq

/-- `System::Info::Info()`. -/
def Info.ofSysinfo (sysinfo : Except Errno SysinfoReply) : Except Exception Info :=
  match sysinfo with
  | .error errno => .error (.systemError errno (some "Can't get system information"))
  | .ok info =>
    let memUnit := info.memUnit.toUInt64
    .ok
      { procs := info.procs
        totalram := info.totalram * memUnit
        freeram := info.freeram * memUnit
        sharedram := info.sharedram * memUnit
        bufferram := info.bufferram * memUnit
        totalswap := info.totalswap * memUnit
        freeswap := info.freeswap * memUnit
        loads := info.loads }

/-! ## Units and bytes -/

/-- The amounts of memory in both. -/
inductive Amount where
  | totalram | freeram | sharedram | bufferram | totalswap | freeswap
  deriving DecidableEq, Repr

def SysinfoReply.units (info : SysinfoReply) : Amount → ℕ
  | .totalram => info.totalram.toNat
  | .freeram => info.freeram.toNat
  | .sharedram => info.sharedram.toNat
  | .bufferram => info.bufferram.toNat
  | .totalswap => info.totalswap.toNat
  | .freeswap => info.freeswap.toNat

def Info.bytes (i : Info) : Amount → ℕ
  | .totalram => i.totalram.toNat
  | .freeram => i.freeram.toNat
  | .sharedram => i.sharedram.toNat
  | .bufferram => i.bufferram.toNat
  | .totalswap => i.totalswap.toNat
  | .freeswap => i.freeswap.toNat

/-- What an amount is part of. -/
def Amount.whole : Amount → Amount
  | .totalram | .freeram | .sharedram | .bufferram => .totalram
  | .totalswap | .freeswap => .totalswap

/-- Every amount is multiplied within 64 bits. -/
theorem bytes_ofSysinfo {info : SysinfoReply} {i : Info} (hi : Info.ofSysinfo (.ok info) = .ok i)
    (a : Amount) : i.bytes a = info.units a * info.memUnit.toNat % 2 ^ 64 := by
  obtain rfl := Except.ok.inj hi
  cases a <;> simp [Info.bytes, SysinfoReply.units]

/-- No amount is more than what it is part of. -/
def SysinfoReply.Consistent (info : SysinfoReply) : Prop :=
  ∀ a, info.units a ≤ info.units a.whole

/-- What `Info` is for: it has the bytes of every amount. -/
def Info.Exact (i : Info) (info : SysinfoReply) : Prop :=
  ∀ a, i.bytes a = info.units a * info.memUnit.toNat

/-- It has when the bytes of the two wholes fit. -/
theorem exact_iff {info : SysinfoReply} (hinfo : info.Consistent) {i : Info}
    (hi : Info.ofSysinfo (.ok info) = .ok i) :
    i.Exact info ↔ info.units .totalram * info.memUnit.toNat < 2 ^ 64 ∧
      info.units .totalswap * info.memUnit.toNat < 2 ^ 64 := by
  have hfits : ∀ a, i.bytes a = info.units a * info.memUnit.toNat ↔
      info.units a * info.memUnit.toNat < 2 ^ 64 := by
    intro a
    rw [bytes_ofSysinfo hi]
    exact Nat.mod_eq_iff_lt (by decide)
  unfold Info.Exact
  simp only [hfits]
  constructor
  · intro hall
    exact ⟨hall .totalram, hall .totalswap⟩
  · rintro ⟨hram, hswap⟩ a
    -- a part fits when its whole does
    refine (Nat.mul_le_mul_right _ (hinfo a)).trans_lt ?_
    cases a with
    | totalswap | freeswap => exact hswap
    | _ => exact hram

/-! ## The swap space -/

/-- The agent's view of the answer. -/
def SysinfoReply.swap (info : SysinfoReply) : Agent.Sysinfo where
  totalswap := info.totalswap.toNat
  freeswap := info.freeswap.toNat

/-- The part of the swap space that is in use, in bytes. -/
def Info.swapUsage (i : Info) : ExactFloat :=
  (.fin i.totalswap.toNat - .fin i.freeswap.toNat) / .fin i.totalswap.toNat

/-- The unit cancels. -/
theorem swapUsage_of_exact {info : SysinfoReply} {i : Info} (hexact : i.Exact info)
    (hunit : 0 < info.memUnit.toNat) (a : SwapUsage) :
    (SwapUsage.refresh (.ok info.swap)).run a = .ok () { a with value := i.swapUsage } := by
  have hpos : (0 : ℚ) < info.memUnit.toNat := by exact_mod_cast hunit
  have htotal : (i.totalswap.toNat : ℚ) = info.totalswap.toNat * info.memUnit.toNat := by
    exact_mod_cast hexact .totalswap
  have hfree : (i.freeswap.toNat : ℚ) = info.freeswap.toNat * info.memUnit.toNat := by
    exact_mod_cast hexact .freeswap
  have hvalue : i.swapUsage =
      (.fin info.totalswap.toNat - .fin info.freeswap.toNat) / .fin info.totalswap.toNat := by
    rw [Info.swapUsage, htotal, hfree, ExactFloat.fin_sub_fin, ← sub_mul,
      ExactFloat.fin_mul_div_fin_mul hpos, ExactFloat.fin_sub_fin]
  rw [hvalue]
  rfl

/-- What the two readers of one answer have. Of a failed call it is the number of the error; the
text that goes with it is translated by the one and not by the other. -/
def ReadersAgree (sysinfo : Except Errno SysinfoReply) (a : SwapUsage) : Prop :=
  match sysinfo with
  | .error errno => ∃ what what', Info.ofSysinfo sysinfo = .error (.systemError errno what) ∧
      (SwapUsage.refresh (sysinfo.map SysinfoReply.swap)).run a =
        .error (.systemError errno what') a
  | .ok info => ∃ i, Info.ofSysinfo sysinfo = .ok i ∧ i.Exact info ∧
      (SwapUsage.refresh (sysinfo.map SysinfoReply.swap)).run a =
        .ok () { a with value := i.swapUsage }

/-- **When the two readers agree**, in exact arithmetic: when the call fails, which both pass on
with its number, and when the bytes of the main memory and of the swap space fit. -/
theorem readers_agree_iff (sysinfo : Except Errno SysinfoReply)
    (hinfo : ∀ info, sysinfo = .ok info → info.Consistent ∧ 0 < info.memUnit.toNat)
    (a : SwapUsage) :
    ReadersAgree sysinfo a ↔ ∀ info, sysinfo = .ok info →
      info.units .totalram * info.memUnit.toNat < 2 ^ 64 ∧
        info.units .totalswap * info.memUnit.toNat < 2 ^ 64 := by
  cases sysinfo with
  | error errno => exact iff_of_true ⟨_, _, rfl, rfl⟩ nofun
  | ok info =>
    obtain ⟨hconsistent, hunit⟩ := hinfo info rfl
    constructor
    · rintro ⟨i, hi, hexact, -⟩ info' hinfo'
      obtain rfl := Except.ok.inj hinfo'
      exact (exact_iff hconsistent hi).mp hexact
    · intro hfits
      have hexact := (exact_iff hconsistent rfl).mpr (hfits info rfl)
      exact ⟨_, rfl, hexact, swapUsage_of_exact hexact hunit a⟩

/-- An answer in pages. -/
def inPages : SysinfoReply where
  loads := #v[65536, 32768, 16384]
  totalram := 4076503
  freeram := 1204417
  sharedram := 40960
  bufferram := 98304
  totalswap := 524288
  freeswap := 393216
  procs := 612
  memUnit := 4096

theorem readers_agree_inPages :
    ReadersAgree (.ok inPages) {} ↔ ∀ info, Except.ok inPages = (.ok info : Except Errno _) →
      info.units .totalram * info.memUnit.toNat < 2 ^ 64 ∧
        info.units .totalswap * info.memUnit.toNat < 2 ^ 64 := by
  apply readers_agree_iff
  intro info hinfo
  obtain rfl := Except.ok.inj hinfo
  refine ⟨?_, by decide⟩
  intro a
  cases a <;> decide

end SysInfo.System
