import Mathlib.Algebra.Order.Field.Basic
import Mathlib.Tactic.Positivity
import SysInfo.Agent.DefaultStates
import SysInfo.Host

/-!
# `System::LoadAverage`

The agent is built for a period of 1, 5 or 15 minutes and then refreshed for as long as it lives. A
refresh reads the entry of the triple that `type` designates; the search of `setup` finds the
period, takes its texts, and leaves `type` alone (`measures_period_iff`).

The period is cut to eight bits on its way to the table (`validates_iff`), and the number of
processors every refresh divides by is the one that was counted then (`safe_to_refresh_iff`).
-/

namespace SysInfo.Agent

open Lib (ExactFloat)
open Lib.CString (strncaseeq)

/-- The array `getloadavg` fills. -/
structure Load where
  l1 : ℚ
  l5 : ℚ
  l15 : ℚ
  deriving DecidableEq

/-- `loadavg[i]`. -/
def Load.entry (loadavg : Load) : ℕ → Option ℚ
  | 0 => some loadavg.l1
  | 1 => some loadavg.l5
  | 2 => some loadavg.l15
  | _ => none

/-- The entry for a period of `m` minutes. -/
def Load.average (loadavg : Load) (m : UInt32) : Option ℚ :=
  if m = 1 then some loadavg.l1
  else if m = 5 then some loadavg.l5
  else if m = 15 then some loadavg.l15
  else none

/-- `Object::properties`, as far as the agent sets them. -/
structure Properties where
  label : String := ""
  summary : String := ""
  icon : String := ""
  deriving DecidableEq

/-- `System::LoadAverage`. -/
structure LoadAverage extends Properties where
  cores : ℕ := 0
  type : UInt8 := 0
  value : ExactFloat := .fin 0
  deriving DecidableEq

namespace LoadAverage

/-- An entry of the table `types`. -/
structure PeriodType where
  minutes : UInt8
  label : String
  summary : String

def types : List PeriodType := [
  { minutes := 1
    label := "System load in the last minute"
    summary := "Average system load in the last minute" },
  { minutes := 5
    label := "System load in the last 5 minutes"
    summary := "Average system load in the last five minutes" },
  { minutes := 15
    label := "System load in the last 15 minutes"
    summary := "Average system load in the last fifteen minutes" }]

/-- `setup(minutes)`. -/
def setup (h : Host) (minutes : UInt8) : EStateM Exception LoadAverage Unit := do
  modify fun a => { a with cores := 0 }
  let cpuinfo ← ofExcept (h.lines "/proc/cpuinfo")
  modify fun a => { a with
    cores := (cpuinfo.filter fun line => strncaseeq line "processor" 9).length
    icon := "utilities-system-monitor" }
  match types.find? fun type => minutes = type.minutes with
  | some type =>
    -- `type = type` gives the variable of the loop its own value, the member keeps the one it has
    modify fun a => { a with
      label := if a.label = "" then type.label else a.label
      summary := if a.summary = "" then type.summary else a.summary }
  | none =>
    throw (.systemError EINVAL (some "The update time should be 1, 5 or 15 minutes"))

/-- `LoadAverage(const char *)`, with the properties the framework has set. -/
def ofName (h : Host) (properties : Properties) : Except Exception LoadAverage :=
  match (setup h 5).run { toProperties := properties } with
  | .ok _ a => .ok a
  | .error e _ => .error e

/-- `LoadAverage(const XML::Node &)`, with the properties the framework has set. -/
def ofNode (h : Host) (properties : Properties) (node : XmlNode) : Except Exception LoadAverage :=
  match (setup h ((node.asUint "minutes").getD 5).toUInt8).run { toProperties := properties } with
  | .ok _ a => .ok a
  | .error e _ => .error e

/-- `refresh()`. `getloadavg` is what the call stores, `none` when it fails. -/
def refresh (getloadavg : Option Load) : EStateM Fault LoadAverage Unit := do
  match getloadavg with
  | none => throw (.throw (.systemError EINVAL (some "Can't get system load average")))
  | some loadavg =>
    let a ← get
    match loadavg.entry a.type.toNat with
    | none => throw .overrun
    | some load =>
      let rc : ExactFloat := .fin load / .fin a.cores
      let rc : ExactFloat := if ExactFloat.fin 100 < rc then .fin 100 else rc
      set { a with value := rc / ExactFloat.fin 100 }

/-- The stored value after each call of a run. -/
def values (a : LoadAverage) : List (Option Load) → List ExactFloat
  | [] => []
  | r :: rs =>
    let a' := left ((refresh r).run a)
    a'.value :: values a' rs

/-! ## Construction -/

/-- The number of processors in a `/proc/cpuinfo`. -/
def processors (cpuinfo : List String) : ℕ :=
  (cpuinfo.filter fun line => strncaseeq line "processor" 9).length

/-- What `setup` leaves of the members a refresh reads: `type` is not touched. -/
theorem setup_ok {h : Host} {minutes : UInt8} {a a' : LoadAverage}
    (hok : (setup h minutes).run a = .ok () a') :
    a'.type = a.type ∧ a'.value = a.value ∧
      (∃ cpuinfo, h.lines "/proc/cpuinfo" = .ok cpuinfo ∧ a'.cores = processors cpuinfo) ∧
      ∃ type ∈ types, minutes = type.minutes := by
  unfold setup at hok
  cases hlines : h.lines "/proc/cpuinfo" with
  | error e =>
    rw [hlines] at hok
    cases hok
  | ok cpuinfo =>
    rw [hlines] at hok
    cases hfind : types.find? fun type => minutes = type.minutes with
    | none =>
      rw [hfind] at hok
      cases hok
    | some type =>
      rw [hfind] at hok
      injection hok with _ ha'
      subst ha'
      refine ⟨rfl, rfl, ⟨cpuinfo, rfl, rfl⟩, type, List.mem_of_find?_eq_some hfind, ?_⟩
      simpa using List.find?_some hfind

/-- The agents that are built for a period of `m` minutes, by name or from a node. -/
def Built (m : UInt32) (a : LoadAverage) : Prop :=
  (m = 1 ∨ m = 5 ∨ m = 15) ∧ ∃ h properties,
    (m = 5 ∧ ofName h properties = .ok a) ∨
      ∃ node : XmlNode, (node.asUint "minutes").getD 5 = m ∧ ofNode h properties node = .ok a

/-- The agents that are built on a machine, by name or from a node. -/
def Constructed (h : Host) (a : LoadAverage) : Prop :=
  ∃ properties, ofName h properties = .ok a ∨ ∃ node, ofNode h properties node = .ok a

theorem Built.constructed {m : UInt32} {a : LoadAverage} (ha : Built m a) :
    ∃ h, Constructed h a := by
  obtain ⟨-, h, properties, ⟨-, hok⟩ | ⟨node, -, hok⟩⟩ := ha
  · exact ⟨h, properties, Or.inl hok⟩
  · exact ⟨h, properties, Or.inr ⟨node, hok⟩⟩

/-- Both constructors return what `setup` leaves of a new object. -/
theorem Constructed.exists_setup {h : Host} {a : LoadAverage} (ha : Constructed h a) :
    ∃ minutes properties, (setup h minutes).run { toProperties := properties } = .ok () a := by
  have hsetup : ∀ minutes properties,
      (match (setup h minutes).run { toProperties := properties } with
        | .ok _ a => Except.ok a
        | .error e _ => .error e) = .ok a →
      (setup h minutes).run { toProperties := properties } = .ok () a := by
    intro minutes properties hok
    cases hrun : (setup h minutes).run { toProperties := properties } with
    | error e a' => rw [hrun] at hok; cases hok
    | ok u a' =>
      rw [hrun] at hok
      injection hok with ha'
      rw [ha']
  obtain ⟨properties, hok | ⟨node, hok⟩⟩ := ha
  · exact ⟨_, _, hsetup 5 properties hok⟩
  · exact ⟨_, _, hsetup _ properties hok⟩

/-- A new agent has counted the processors, and nothing else of what a refresh reads is set. -/
theorem Constructed.members {h : Host} {a : LoadAverage} (ha : Constructed h a) :
    a.type = 0 ∧ a.value = .fin 0 ∧
      ∃ cpuinfo, h.lines "/proc/cpuinfo" = .ok cpuinfo ∧ a.cores = processors cpuinfo := by
  obtain ⟨minutes, properties, hrun⟩ := ha.exists_setup
  obtain ⟨htype, hvalue, hcores, -⟩ := setup_ok hrun
  exact ⟨htype, hvalue, hcores⟩

/-! ## Refreshing -/

/-- What a refresh stores for a load. -/
def share (cores : ℕ) (load : ℚ) : ExactFloat :=
  (if ExactFloat.fin 100 < .fin load / .fin cores then .fin 100 else .fin load / .fin cores) /
    .fin 100

theorem refresh_ok {a : LoadAverage} (htype : a.type = 0) (loadavg : Load) :
    (refresh (some loadavg)).run a = .ok () { a with value := share a.cores loadavg.l1 } := by
  simp [refresh, htype, Load.entry, share]

/-- **What a refresh of a constructed agent does**: it stores the share of the first entry. -/
theorem refresh_run {a : LoadAverage} (htype : a.type = 0) (r : Option Load) :
    left ((refresh r).run a) =
      { a with value := (r.map fun l => share a.cores l.l1).getD a.value } := by
  cases r with
  | none => rfl
  | some l =>
    rw [refresh_ok htype]
    rfl

theorem values_cons {a : LoadAverage} (htype : a.type = 0) (r : Option Load)
    (rs : List (Option Load)) :
    values a (r :: rs) =
      (r.map fun l => share a.cores l.l1).getD a.value ::
        values { a with value := (r.map fun l => share a.cores l.l1).getD a.value } rs := by
  rw [values, refresh_run htype]

/-- Two runs that agree on the first entries store the same values. -/
theorem values_congr {rs rs' : List (Option Load)}
    (hrs : rs.map (Option.map Load.l1) = rs'.map (Option.map Load.l1)) {a a' : LoadAverage}
    (htype : a.type = 0) (htype' : a'.type = 0) (hcores : a.cores = a'.cores)
    (hvalue : a.value = a'.value) : values a rs = values a' rs' := by
  induction rs generalizing rs' a a' with
  | nil =>
    obtain rfl : rs' = [] := by simpa using hrs
    rfl
  | cons r rs ih =>
    cases rs' with
    | nil => simp at hrs
    | cons r' rs' =>
      rw [List.map_cons, List.map_cons, List.cons.injEq] at hrs
      obtain ⟨hr, hrs⟩ := hrs
      have hstored : (r.map fun l => share a.cores l.l1).getD a.value =
          (r'.map fun l => share a'.cores l.l1).getD a'.value := by
        have hmap := congrArg (fun x => (Option.map (share a.cores) x).getD a.value) hr
        simpa [Option.map_map, Function.comp_def, hcores, hvalue] using hmap
      rw [values_cons htype, values_cons htype', hstored]
      exact congrArg _ (ih hrs htype htype' hcores rfl)

/-- On a machine with processors the share is a hundredth of the load of one, cut at 1. -/
theorem share_of_pos {cores : ℕ} (hpos : 1 ≤ cores) (load : ℚ) :
    share cores load = .fin (min 100 (load / cores) / 100) := by
  have hc : (cores : ℚ) ≠ 0 := by
    have : cores ≠ 0 := by omega
    exact_mod_cast this
  have h100 : (100 : ℚ) ≠ 0 := by norm_num
  unfold share
  rw [ExactFloat.fin_div_fin hc]
  by_cases hlt : 100 < load / cores
  · rw [if_pos (ExactFloat.fin_lt_fin.mpr hlt), ExactFloat.fin_div_fin h100, min_eq_left hlt.le]
  · have hle : load / cores ≤ 100 := not_lt.mp hlt
    rw [if_neg (mt ExactFloat.fin_lt_fin.mp hlt), ExactFloat.fin_div_fin h100, min_eq_right hle]

/-- The shares of an idle machine and of one with a single task are not the same, whatever the
number of cores, none included. -/
theorem share_zero_ne_share_one (cores : ℕ) : share cores 0 ≠ share cores 1 := by
  by_cases h0 : cores = 0
  · -- 0 / 0 is no number, 1 / 0 is cut to 100
    subst h0
    unfold share
    rw [Nat.cast_zero, ExactFloat.fin_div_zero, ExactFloat.fin_div_zero, ExactFloat.signedInf_zero,
      ExactFloat.signedInf_of_pos one_pos]
    simp
  · have hone : 1 ≤ cores := Nat.one_le_iff_ne_zero.mpr h0
    have hc : (1 : ℚ) ≤ cores := by exact_mod_cast hone
    have hpos : (0 : ℚ) < 1 / cores := by positivity
    have hle : (1 : ℚ) / cores ≤ 1 := by rwa [div_le_one (by positivity)]
    rw [share_of_pos hone, share_of_pos hone, zero_div, min_eq_right (by norm_num),
      min_eq_right (by linarith)]
    intro hsame
    injection hsame with hsame
    linarith

/-! ## The period -/

/-- What the period is for: the stored values of two agents with the same number of cores depend
on nothing but the entries for the period. -/
def MeasuresPeriod (m : UInt32) (a a' : LoadAverage) : Prop :=
  ∀ rs rs' : List (Option Load),
    rs.map (Option.map (·.average m)) = rs'.map (Option.map (·.average m)) →
    values a rs = values a' rs'

/-- **For which period the configured average is the measured one**: for one minute. -/
theorem measures_period_iff (m : UInt32) (a a' : LoadAverage) (ha : Built m a) (ha' : Built m a')
    (hcores : a.cores = a'.cores) : MeasuresPeriod m a a' ↔ m = 1 := by
  obtain ⟨h, hconstructed⟩ := ha.constructed
  obtain ⟨h', hconstructed'⟩ := ha'.constructed
  obtain ⟨htype, hvalue, -⟩ := hconstructed.members
  obtain ⟨htype', hvalue', -⟩ := hconstructed'.members
  constructor
  · intro hmeasures
    by_contra hm
    -- the entries for 5 and 15 minutes agree, the first ones do not
    have hstored := hmeasures [some ⟨0, 0, 0⟩] [some ⟨1, 0, 0⟩] (by simp [Load.average, hm])
    rw [values_cons htype, values_cons htype', hcores] at hstored
    exact share_zero_ne_share_one a'.cores (List.cons.inj hstored).1
  · rintro rfl rs rs' hrs
    have hentries : ∀ rs : List (Option Load),
        rs.map (Option.map (·.average 1)) =
          (rs.map (Option.map Load.l1)).map (Option.map some) := by
      intro rs
      simp [Load.average, Function.comp_def]
    rw [hentries, hentries] at hrs
    apply values_congr _ htype htype' hcores (hvalue.trans hvalue'.symm)
    exact List.map_injective_iff.mpr (Option.map_injective (Option.some_injective ℚ)) hrs

/-- A machine with two processors. -/
def twoCores : Host where
  __ := Host.bare
  lines _ := .ok ["processor : 0", "flags : fpu", "processor : 1", "flags : fpu"]

/-- The agent that is built on it for one minute, -/
def oneMinute : LoadAverage where
  label := "System load in the last minute"
  summary := "Average system load in the last minute"
  icon := "utilities-system-monitor"
  cores := 2

/-- and the one for five. -/
def fiveMinutes : LoadAverage where
  label := "System load in the last 5 minutes"
  summary := "Average system load in the last five minutes"
  icon := "utilities-system-monitor"
  cores := 2

theorem built_oneMinute : Built 1 oneMinute :=
  ⟨Or.inl rfl, twoCores, {}, Or.inr ⟨⟨fun _ => none, fun _ => some 1⟩, rfl, by decide⟩⟩

theorem built_fiveMinutes : Built 5 fiveMinutes :=
  ⟨Or.inr (Or.inl rfl), twoCores, {}, Or.inl ⟨rfl, by decide⟩⟩

theorem measures_period_oneMinute : MeasuresPeriod 1 oneMinute oneMinute :=
  (measures_period_iff 1 _ _ built_oneMinute built_oneMinute rfl).mpr rfl

/-- Two machines with the same load over five minutes, one of them idle now. -/
theorem not_measures_period_fiveMinutes :
    Built 5 fiveMinutes ∧ ¬ MeasuresPeriod 5 fiveMinutes fiveMinutes := by
  refine ⟨built_fiveMinutes, fun hmeasures => ?_⟩
  have hstored := hmeasures [some ⟨0, 2, 0⟩] [some ⟨1, 2, 0⟩] (by simp [Load.average])
  rw [values_cons rfl, values_cons rfl] at hstored
  exact share_zero_ne_share_one 2 (List.cons.inj hstored).1

/-! ## The fraction -/

/-- The agent after a run of calls. -/
def after (a : LoadAverage) (rs : List (Option Load)) : LoadAverage :=
  rs.foldl (fun a r => left ((refresh r).run a)) a

/-- A refresh stores a value and nothing else. -/
theorem after_members {a : LoadAverage} (htype : a.type = 0) (rs : List (Option Load)) :
    (a.after rs).type = 0 ∧ (a.after rs).cores = a.cores := by
  induction rs generalizing a with
  | nil => exact ⟨htype, rfl⟩
  | cons r rs ih =>
    show ((left ((refresh r).run a)).after rs).type = 0 ∧
      ((left ((refresh r).run a)).after rs).cores = a.cores
    rw [refresh_run htype]
    exact ih htype

/-- A hundredth is the whole only at the ends. -/
theorem clamp_div_eq_iff {x : ℚ} (hx : 0 ≤ x) : min 100 x / 100 = min 1 x ↔ x = 0 ∨ 100 ≤ x := by
  constructor
  · intro hsame
    by_contra hnone
    obtain ⟨hzero, hlt⟩ := not_or.mp hnone
    rw [min_eq_right (not_le.mp hlt).le] at hsame
    rcases le_total 1 x with hone | hone
    · rw [min_eq_left hone] at hsame
      linarith
    · rw [min_eq_right hone] at hsame
      apply hzero
      linarith
  · rintro (rfl | hle)
    · norm_num
    · rw [min_eq_left hle, min_eq_left (by linarith)]
      norm_num

/-- **When the stored value is the fraction of the capacity**: with no load at all, and from a load
of a hundred for each core on. -/
theorem load_fraction_iff (h : Host) (cpuinfo : List String)
    (hfile : h.lines "/proc/cpuinfo" = .ok cpuinfo) (n : ℕ) (hn : processors cpuinfo = n)
    (hpos : 1 ≤ n) (a : LoadAverage) (ha : Constructed h a) (earlier : List (Option Load))
    (loadavg : Load) (l : ℚ) (hl : loadavg.entry (a.after earlier).type.toNat = some l)
    (h0 : 0 ≤ l) :
    (left ((refresh (some loadavg)).run (a.after earlier))).value = .fin (min 1 (l / n)) ↔
      l = 0 ∨ 100 * n ≤ l := by
  obtain ⟨htype, -, cpuinfo', hfile', hcores⟩ := ha.members
  obtain ⟨htype', hcores'⟩ := after_members htype earlier
  obtain rfl : cpuinfo' = cpuinfo := Except.ok.inj (hfile'.symm.trans hfile)
  rw [hn] at hcores
  have hentry : loadavg.l1 = l := by
    rw [htype'] at hl
    exact Option.some.inj hl
  have hn' : (0 : ℚ) < n := by exact_mod_cast hpos
  have hstored : (left ((refresh (some loadavg)).run (a.after earlier))).value =
      .fin (min 100 (l / n) / 100) := by
    rw [refresh_run htype', hcores', hcores]
    show share n loadavg.l1 = _
    rw [hentry, share_of_pos hpos]
  rw [hstored, ExactFloat.fin.injEq, clamp_div_eq_iff (div_nonneg h0 hn'.le)]
  rw [div_eq_zero_iff, le_div_iff₀ hn']
  constructor
  · rintro ((hzero | hzero) | hle)
    · exact Or.inl hzero
    · exact absurd hzero hn'.ne'
    · exact Or.inr hle
  · rintro (hzero | hle)
    · exact Or.inl (Or.inl hzero)
    · exact Or.inr hle

theorem constructed_fiveMinutes : Constructed twoCores fiveMinutes :=
  ⟨{}, Or.inl (by decide)⟩

theorem load_fraction_fiveMinutes :
    (left ((refresh (some ⟨300, 0, 0⟩)).run (fiveMinutes.after [none]))).value =
        .fin (min 1 (300 / (2 : ℕ))) ↔
      (300 : ℚ) = 0 ∨ 100 * ((2 : ℕ) : ℚ) ≤ 300 :=
  load_fraction_iff twoCores _ rfl 2 (by decide) (by decide) fiveMinutes constructed_fiveMinutes
    [none] ⟨300, 0, 0⟩ 300 rfl (by norm_num)

/-- Two busy cores out of two are reported as a hundredth. -/
theorem not_load_fraction_fiveMinutes :
    Constructed twoCores fiveMinutes ∧
      (left ((refresh (some ⟨2, 2, 2⟩)).run fiveMinutes)).value ≠ .fin (min 1 (2 / 2)) := by
  refine ⟨constructed_fiveMinutes, ?_⟩
  rw [refresh_run rfl]
  show share 2 2 ≠ _
  rw [share_of_pos (by omega)]
  norm_num

/-! ## The accepted periods -/

/-- The periods the error text names. -/
def Documented (m : UInt32) : Prop := m = 1 ∨ m = 5 ∨ m = 15

instance (m : UInt32) : Decidable (Documented m) := inferInstanceAs (Decidable (_ ∨ _ ∨ _))

/-- **When `setup` goes through**: when the processors can be counted and the period is in the
table. -/
theorem setup_ok_iff {h : Host} {minutes : UInt8} {a : LoadAverage} :
    (∃ a', (setup h minutes).run a = .ok () a') ↔
      (∃ cpuinfo, h.lines "/proc/cpuinfo" = .ok cpuinfo) ∧
        ∃ type ∈ types, minutes = type.minutes := by
  constructor
  · intro hruns
    obtain ⟨a', hok⟩ := hruns
    obtain ⟨-, -, ⟨cpuinfo, hfile, -⟩, htype⟩ := setup_ok hok
    exact ⟨⟨cpuinfo, hfile⟩, htype⟩
  · intro hinput
    obtain ⟨⟨cpuinfo, hfile⟩, type, htype, hminutes⟩ := hinput
    unfold setup
    rw [hfile]
    cases hfind : types.find? fun type => minutes = type.minutes with
    | none =>
      have hnone := List.find?_eq_none.mp hfind type htype
      simp [hminutes] at hnone
    | some type' => exact ⟨_, rfl⟩

/-- The member has eight bits: the table sees the period modulo 256. -/
theorem mem_types_iff (m : UInt32) :
    (∃ type ∈ types, m.toUInt8 = type.minutes) ↔ Documented (m % 256) := by
  have hcut : ∀ k : UInt32, k < 256 → (m.toUInt8 = k.toUInt8 ↔ m % 256 = k) := by
    intro k hk
    rw [← UInt8.toNat_inj, ← UInt32.toNat_inj, UInt32.toNat_mod, UInt32.toNat_toUInt8,
      UInt32.toNat_toUInt8]
    have hlt : k.toNat < 256 := UInt32.lt_iff_toNat_lt.mp hk
    show m.toNat % 2 ^ 8 = k.toNat % 2 ^ 8 ↔ m.toNat % 256 = k.toNat
    omega
  have h1 := hcut 1 (by decide)
  have h5 := hcut 5 (by decide)
  have h15 := hcut 15 (by decide)
  simp only [types, List.mem_cons, List.not_mem_nil, or_false, exists_eq_or_imp, exists_eq_left]
  rw [Documented, ← h1, ← h5, ← h15]
  rfl

/-- The constructor throws exactly when `setup` does. -/
theorem ofNode_error_iff {h : Host} {properties : Properties} {node : XmlNode} :
    (∃ e, ofNode h properties node = .error e) ↔
      ¬ ∃ a, (setup h ((node.asUint "minutes").getD 5).toUInt8).run { toProperties := properties } =
        .ok () a := by
  unfold ofNode
  cases (setup h ((node.asUint "minutes").getD 5).toUInt8).run { toProperties := properties } with
  | ok u a => simp
  | error e a => simp

/-- What the check of the period is for: on the machine, a node with this attribute is refused
exactly when the period is none of the three. -/
def Validates (h : Host) (m : UInt32) : Prop :=
  ∀ properties (node : XmlNode), node.asUint "minutes" = some m →
    ((∃ e, ofNode h properties node = .error e) ↔ ¬ Documented m)

/-- **When the check of the period is right**: for the three periods where the processors can be
counted, and for another one where they cannot or where its remainder modulo 256 is none of the
three either. -/
theorem validates_iff (h : Host) (m : UInt32) :
    Validates h m ↔
      (Documented m → ∃ cpuinfo, h.lines "/proc/cpuinfo" = .ok cpuinfo) ∧
        (¬ Documented m → Documented (m % 256) →
          ¬ ∃ cpuinfo, h.lines "/proc/cpuinfo" = .ok cpuinfo) := by
  have hthrows : ∀ properties (node : XmlNode), node.asUint "minutes" = some m →
      ((∃ e, ofNode h properties node = .error e) ↔
        ¬ ((∃ cpuinfo, h.lines "/proc/cpuinfo" = .ok cpuinfo) ∧ Documented (m % 256))) := by
    intro properties node hnode
    rw [ofNode_error_iff, setup_ok_iff, hnode, Option.getD_some, mem_types_iff]
  have hself : Documented m → Documented (m % 256) := by
    rintro (rfl | rfl | rfl) <;> decide
  constructor
  · intro hvalidates
    have hiff := hvalidates {} ⟨fun _ => none, fun _ => some m⟩ rfl
    rw [hthrows {} _ rfl] at hiff
    tauto
  · intro hcond properties node hnode
    rw [hthrows properties node hnode]
    tauto

/-- 257 minutes are taken for one. -/
theorem not_validates_257 : ¬ Validates twoCores 257 := by
  intro hvalidates
  have hnode := hvalidates {} ⟨fun _ => none, fun _ => some 257⟩ rfl
  obtain ⟨e, he⟩ := hnode.mpr (by decide)
  cases he

/-! ## The divisor -/

/-- What the count of the processors is for: in every later state there is at least one, and a
refresh with any load the system can report returns and leaves a value from 0 to 1. -/
def SafeToRefresh (a : LoadAverage) : Prop :=
  ∀ rs, 1 ≤ (a.after rs).cores ∧
    ∀ loadavg : Load, 0 ≤ loadavg.l1 → 0 ≤ loadavg.l5 → 0 ≤ loadavg.l15 →
      ∃ a' q, (refresh (some loadavg)).run (a.after rs) = .ok () a' ∧ a'.value = .fin q ∧
        0 ≤ q ∧ q ≤ 1

/-- With processors, the share of a load is a number from 0 to 1. -/
theorem share_mem_unit {cores : ℕ} (hpos : 1 ≤ cores) {load : ℚ} (hload : 0 ≤ load) :
    ∃ q, share cores load = .fin q ∧ 0 ≤ q ∧ q ≤ 1 := by
  refine ⟨_, share_of_pos hpos load, ?_, ?_⟩
  · have hc : (0 : ℚ) ≤ load / cores := div_nonneg hload (Nat.cast_nonneg _)
    have hmin : 0 ≤ min 100 (load / cores) := le_min (by norm_num) hc
    linarith
  · have hmin : min 100 (load / cores) ≤ 100 := min_le_left _ _
    linarith

theorem processors_pos_iff {cpuinfo : List String} :
    1 ≤ processors cpuinfo ↔ ∃ line ∈ cpuinfo, strncaseeq line "processor" 9 = true := by
  rw [processors, Nat.one_le_iff_ne_zero, ne_eq, List.length_eq_zero_iff, List.filter_eq_nil_iff]
  simp

/-- **When an agent can always be refreshed**: when there was a line for a processor as it was
built. -/
theorem safe_to_refresh_iff (h : Host) (cpuinfo : List String)
    (hfile : h.lines "/proc/cpuinfo" = .ok cpuinfo) (a : LoadAverage) (ha : Constructed h a) :
    SafeToRefresh a ↔ ∃ line ∈ cpuinfo, strncaseeq line "processor" 9 = true := by
  obtain ⟨htype, -, cpuinfo', hfile', hcores⟩ := ha.members
  obtain rfl : cpuinfo' = cpuinfo := Except.ok.inj (hfile'.symm.trans hfile)
  rw [← processors_pos_iff, ← hcores]
  constructor
  · intro hsafe
    exact (hsafe []).1
  · intro hpos rs
    -- no refresh changes the number of processors
    obtain ⟨htype', hcores'⟩ := after_members htype rs
    rw [← hcores'] at hpos
    refine ⟨hpos, ?_⟩
    intro loadavg h1 _ _
    obtain ⟨q, hq, hnonneg, hle⟩ := share_mem_unit hpos h1
    exact ⟨_, q, refresh_ok htype' loadavg, hq, hnonneg, hle⟩

theorem safe_to_refresh_fiveMinutes :
    SafeToRefresh fiveMinutes ↔
      ∃ line ∈ ["processor : 0", "flags : fpu", "processor : 1", "flags : fpu"],
        strncaseeq line "processor" 9 = true :=
  safe_to_refresh_iff twoCores _ rfl fiveMinutes constructed_fiveMinutes

/-- A machine whose `/proc/cpuinfo` numbers its processors under another name. -/
def otherLayout : Host where
  __ := Host.bare
  lines _ := .ok ["cpu : Alpha", "cpus detected : 2"]

/-- No processor is counted on it, and an idle refresh stores no number. -/
theorem not_safeToRefresh_otherLayout :
    Constructed otherLayout { fiveMinutes with cores := 0 } ∧
      ¬ SafeToRefresh { fiveMinutes with cores := 0 } ∧
      (left ((refresh (some ⟨0, 0, 0⟩)).run { fiveMinutes with cores := 0 })).value = .nan := by
  refine ⟨⟨{}, Or.inl (by decide)⟩, ?_, ?_⟩
  · intro hsafe
    have hpos := (hsafe []).1
    cases hpos
  · rw [refresh_ok rfl]
    show share 0 0 = .nan
    unfold share
    rw [Nat.cast_zero, ExactFloat.fin_div_zero, ExactFloat.signedInf_zero]
    simp

end LoadAverage

end SysInfo.Agent
