import Mathlib.Data.List.Find
import SysInfo.Agent.LoadAverage
import SysInfo.Agent.MemoryUsage
import SysInfo.Agent.SwapUsage
import SysInfo.Lib.Simulation

/-!
# The percentage agents over their life

    refresh ── refresh (throws) ── refresh ── …          value
       │            ·                 │                    │
    used/total                    used/total  ──────▶  computeState

An agent remembers the last reading it could take, and its state is that of this reading: the first
entry of its table with `used < value * total`. In exact arithmetic the division is only a detour,
also where it gives no number (`states_of_histories`).
-/

namespace SysInfo.Agent

open Lib (ExactFloat Ladder Simulation)

variable {σ : Type} {compare : σ → ExactFloat → Bool}

/-! ## The state of a quotient -/

/-- What `computeState` does with what it finds in the two lists. -/
def settle (user : Option σ) (own : Option DefaultState) : Computed σ :=
  match user, own with
  | some state, _ => .user state
  | none, some state => .own state
  | none, none => .framework

theorem computeState_eq (defaults : Ladder DefaultState.level) (states : List σ)
    (current : ExactFloat) :
    computeState compare defaults states current =
      settle (states.find? (compare · current))
        (defaults.first fun state => current < .fin state.value) := by
  unfold computeState settle
  cases states.find? (compare · current) with
  | some state => rfl
  | none => cases defaults.first fun state => decide (current < .fin state.value) <;> rfl

theorem Kind.computeState_eq (agent : Kind) (states : List σ) (current : ExactFloat) :
    agent.computeState compare states current =
      settle (states.find? (compare · current))
        (agent.defaultStates.first fun state => current < .fin state.value) := by
  cases agent <;> exact Agent.computeState_eq _ _ _

/-- **A quotient is below a bound when the products are**, a quotient by 0 included: with nothing
used it is no number, and with something it is infinite. -/
theorem div_lt_fin_iff {used total v : ℚ} (htotal : 0 ≤ total) :
    ExactFloat.fin used / .fin total < .fin v ↔ used < v * total := by
  rcases htotal.eq_or_lt with rfl | hpos
  -- what is no number is below nothing, and of the infinities only the negative one is
  · rw [ExactFloat.fin_div_zero, mul_zero]
    unfold ExactFloat.signedInf
    split_ifs with hgt hlt
    · simp [hgt.le]
    · exact iff_of_true rfl hlt
    · simp [not_lt.mp hlt]
  · rw [ExactFloat.fin_div_fin hpos.ne', ExactFloat.fin_lt_fin, div_lt_iff₀ hpos]

/-- What is used, and out of what. -/
structure Reading where
  used : ℚ
  total : ℚ

/-- The entry for a reading: the first one that less is used than. -/
def Kind.entry (agent : Kind) (r : Reading) : Option DefaultState :=
  agent.defaultStates.first fun state => r.used < state.value * r.total

/-- There is one unless everything is used. -/
theorem Kind.entry_isSome_iff (agent : Kind) {r : Reading} (htotal : 0 ≤ r.total) :
    (agent.entry r).isSome ↔ r.used < r.total := by
  rw [Option.isSome_iff_exists, Kind.entry]
  simp only [Ladder.exists_first_iff, decide_eq_true_eq]
  constructor
  · rintro ⟨state, hstate, hlt⟩
    have hle : state.value * r.total ≤ 1 * r.total :=
      mul_le_mul_of_nonneg_right (agent.value_le_one state hstate) htotal
    linarith
  · intro hlt
    obtain ⟨state, hstate, hone⟩ := agent.exists_value_eq_one
    refine ⟨state, hstate, ?_⟩
    rwa [hone, one_mul]

/-- With more used of the same the entry is not a less severe one. -/
theorem Kind.entry_mono (agent : Kind) {r r' : Reading} (htotal : r.total = r'.total)
    (hused : r.used ≤ r'.used) {s t : DefaultState} (hs : agent.entry r = some s)
    (ht : agent.entry r' = some t) : s.level ≤ t.level := by
  apply Ladder.first_mono _ hs ht
  intro state _ htakes
  rw [decide_eq_true_eq] at htakes ⊢
  rw [htotal]
  exact hused.trans_lt htakes

/-- A value that stands for a reading: it is graded as the products say, -/
structure Kind.Grades (agent : Kind) (compare : σ → ExactFloat → Bool) (r : Reading)
    (value : ExactFloat) : Prop where
  state : ∀ states : List σ, agent.computeState compare states value =
    settle (states.find? (compare · value)) (agent.entry r)
  /-- by an entry of the table unless everything is used, -/
  entry_isSome : (agent.entry r).isSome ↔ r.used < r.total
  /-- and by one that is at least as severe as with less in use. -/
  entry_mono : ∀ r' s t, r'.total = r.total → r'.used ≤ r.used → agent.entry r' = some s →
    agent.entry r = some t → s.level ≤ t.level

/-- The quotient stands for the reading, -/
theorem Kind.grades_quotient (agent : Kind) {r : Reading} (htotal : 0 ≤ r.total) :
    agent.Grades compare r (.fin r.used / .fin r.total) where
  state states := by
    rw [agent.computeState_eq, Kind.entry]
    simp only [div_lt_fin_iff htotal]
  entry_isSome := agent.entry_isSome_iff htotal
  entry_mono _ _ _ htotal hused := agent.entry_mono htotal hused

/-- An agent's life: the last reading that could be taken is the one the value stands for, and until
there is one the value is what it was. -/
def Kind.Remembers (agent : Kind) (compare : σ → ExactFloat → Bool) (start : ExactFloat)
    (last : Option Reading) (value : ExactFloat) : Prop :=
  match last with
  | none => value = start
  | some r => agent.Grades compare r value

/-- A machine that stores values which stand for what it reads has such a life. -/
theorem Kind.remembers_run (agent : Kind) {α ι : Type} {step : α → ι → α}
    (S : Simulation step fun (_ v : ExactFloat) => v) {reading : ι → Option Reading}
    {store : Reading → ExactFloat} (hview : ∀ i, S.view i = (reading i).map store) {a : α}
    (ha : S.Inv a) {is : List ι}
    (hstore : ∀ i ∈ is, ∀ r, reading i = some r → agent.Grades compare r (store r)) :
    agent.Remembers compare (S.abs a) (is.filterMap reading).getLast?
      (S.abs (is.foldl step a)) := by
  have hseen : is.filterMap S.view = (is.filterMap reading).map store := by
    rw [List.map_filterMap]
    exact congrArg (is.filterMap ·) (funext hview)
  rw [S.last_run ha, hseen, List.getLast?_map]
  cases hlast : (is.filterMap reading).getLast? with
  | none => rfl
  | some r =>
    obtain ⟨i, hi, hr⟩ := List.mem_filterMap.mp (List.mem_of_getLast? hlast)
    exact hstore i hi r hr

/-! ## Swap usage -/

namespace SwapUsage

/-- The agent after a run of calls. -/
def after (a : SwapUsage) (rs : List (Except Errno Sysinfo)) : SwapUsage :=
  rs.foldl (fun a r => left ((refresh r).run a)) a

/-- What a call reads, if it goes through. -/
def reading (r : Except Errno Sysinfo) : Option Reading :=
  r.toOption.map fun info => ⟨info.totalswap - info.freeswap, info.totalswap⟩

/-- The agent remembers the last answer of the system. -/
def remembering :
    Simulation (fun a r => left ((refresh r).run a)) (fun (_ v : ExactFloat) => v) where
  Inv _ := True
  abs a := a.value
  view r := (reading r).map fun r => .fin r.used / .fin r.total
  keeps _ _ _ := trivial
  hidden a r _ hview := by
    cases r with
    | error errno => rfl
    | ok info => cases hview
  visible a r v _ hview := by
    cases r with
    | error errno => cases hview
    | ok info => exact Option.some.inj hview

theorem remembers_after (a : SwapUsage) (rs : List (Except Errno Sysinfo)) :
    Kind.swapUsage.Remembers compare a.value (rs.filterMap reading).getLast?
      (a.after rs).value := by
  apply Kind.remembers_run .swapUsage remembering (fun _ => rfl) trivial
  intro r _ reading hreading
  cases r with
  | error errno => cases hreading
  | ok info =>
    obtain rfl := Option.some.inj hreading
    exact Kind.grades_quotient .swapUsage (Nat.cast_nonneg info.totalswap)

end SwapUsage

/-! ## Memory usage -/

namespace MemoryUsage

/-- What a call finds in `/proc/meminfo`: the two amounts, of no more bytes than fit 64 bits, or a
value that cannot be had. -/
structure Sample where
  meminfo : String → Except Exception String
  amounts : Option (Amount × Amount)
  shown : ∀ total available, amounts = some (total, available) →
    meminfo "MemTotal" = .ok total.text ∧ meminfo "MemAvailable" = .ok available.text
  fits : ∀ total available, amounts = some (total, available) →
    total.bytes < 2 ^ 64 ∧ available.bytes < 2 ^ 64
  missing : amounts = none → ∃ key ∈ ["MemTotal", "MemAvailable"], ∃ e, meminfo key = .error e

/-- The agent after a run of calls. -/
def after (a : MemoryUsage) (rs : List Sample) : MemoryUsage :=
  rs.foldl (fun a r => left ((refresh r.meminfo).run a)) a

/-- What a call reads, if both amounts are there. -/
def reading (r : Sample) : Option Reading :=
  r.amounts.map fun v => ⟨v.1.bytes - v.2.bytes, v.1.bytes⟩

/-- A call that does not get both values stores nothing. -/
theorem left_refresh_of_error {meminfo : String → Except Exception String} {key : String}
    (hkey : key ∈ ["MemTotal", "MemAvailable"]) {e : Exception} (he : meminfo key = .error e)
    (a : MemoryUsage) : left ((refresh meminfo).run a) = a := by
  unfold refresh
  cases htotal : meminfo "MemTotal" with
  | error e' => rfl
  | ok total =>
    rcases List.mem_cons.mp hkey with rfl | hkey
    · rw [htotal] at he
      cases he
    · obtain rfl := List.mem_singleton.mp hkey
      rw [he]
      rfl

theorem left_refresh (r : Sample) (a : MemoryUsage) :
    (left ((refresh r.meminfo).run a)).value =
      ((reading r).map fun r => .fin r.used / .fin r.total).getD a.value := by
  unfold reading
  cases hamounts : r.amounts with
  | none =>
    obtain ⟨key, hkey, e, he⟩ := r.missing hamounts
    rw [left_refresh_of_error hkey he]
    rfl
  | some v =>
    obtain ⟨htotal, havailable⟩ := r.shown v.1 v.2 hamounts
    obtain ⟨hlt, hlt'⟩ := r.fits v.1 v.2 hamounts
    rw [refresh_run htotal havailable, v.1.getScaled_text hlt, v.2.getScaled_text hlt']
    rfl

/-- The agent remembers the last reading that had both values. -/
def remembering :
    Simulation (fun a r => left ((refresh (Sample.meminfo r)).run a))
      (fun (_ v : ExactFloat) => v) where
  Inv _ := True
  abs a := a.value
  view r := (reading r).map fun r => .fin r.used / .fin r.total
  keeps _ _ _ := trivial
  hidden a r _ hview := by rw [left_refresh, hview, Option.getD_none]
  visible a r v _ hview := by rw [left_refresh, hview, Option.getD_some]

theorem remembers_after (a : MemoryUsage) (rs : List Sample) :
    Kind.memoryUsage.Remembers compare a.value (rs.filterMap reading).getLast?
      (a.after rs).value := by
  apply Kind.remembers_run .memoryUsage remembering (fun _ => rfl) trivial
  intro r _ reading hreading
  obtain ⟨v, -, rfl⟩ := Option.map_eq_some_iff.mp hreading
  exact Kind.grades_quotient .memoryUsage (Nat.cast_nonneg v.1.bytes)

/-- A file that says that half of the memory is in use, -/
def halfInUse : Sample where
  meminfo key := .ok (if key = "MemTotal" then sixteenGB.text else halfOfIt.text)
  amounts := some (sixteenGB, halfOfIt)
  shown _ _ h := by
    obtain ⟨rfl, rfl⟩ := Prod.mk.inj (Option.some.inj h)
    exact ⟨rfl, rfl⟩
  fits _ _ h := by
    obtain ⟨rfl, rfl⟩ := Prod.mk.inj (Option.some.inj h)
    decide
  missing h := by cases h

/-- and none at all. -/
def noFile : Sample where
  meminfo _ := .error (.systemError ENOENT none)
  amounts := none
  shown _ _ h := by cases h
  fits _ _ h := by cases h
  missing _ := ⟨"MemTotal", by simp, _, rfl⟩

end MemoryUsage

/-! ## Load average -/

namespace LoadAverage

/-- What a call reads, if it goes through: the load, out of a hundred for each core. -/
def reading (cores : ℕ) (r : Option Load) : Option Reading :=
  r.map fun l => ⟨l.l1, 100 * cores⟩

/-- The agent remembers the last answer of the system. -/
def remembering (n : ℕ) :
    Simulation (fun a r => left ((refresh r).run a)) (fun (_ v : ExactFloat) => v) where
  Inv a := a.type = 0 ∧ a.cores = n
  abs a := a.value
  view r := (reading n r).map fun r => share n r.used
  keeps a r ha := by
    rw [refresh_run ha.1]
    exact ha
  hidden a r ha hview := by
    rw [refresh_run ha.1]
    cases r with
    | none => rfl
    | some l => cases hview
  visible a r v ha hview := by
    rw [refresh_run ha.1]
    cases r with
    | none => cases hview
    | some l =>
      rw [ha.2]
      exact Option.some.inj hview

/-- A share is below an entry when the load is below as much of a hundred for each core. -/
theorem share_lt_iff {cores : ℕ} {load v : ℚ} (hload : 0 ≤ load) (hv : v ≤ 1) :
    share cores load < .fin v ↔ load < v * (100 * cores) := by
  have hcores : (0 : ℚ) ≤ cores := Nat.cast_nonneg _
  have h100 : (100 : ℚ) ≠ 0 := by norm_num
  rcases Nat.eq_zero_or_pos cores with rfl | hpos
  -- without a core a load is infinite, which is cut to 1, or no number, which is not
  · rw [Nat.cast_zero, mul_zero, mul_zero]
    apply iff_of_false _ (not_lt.mpr hload)
    unfold share
    rw [Nat.cast_zero, ExactFloat.fin_div_zero]
    rcases hload.eq_or_lt with rfl | hgt
    · rw [ExactFloat.signedInf_zero]
      simp
    · rw [ExactFloat.signedInf_of_pos hgt, if_pos (ExactFloat.fin_lt_posInf 100),
        ExactFloat.fin_div_fin h100, ExactFloat.fin_lt_fin, div_self h100]
      exact not_lt.mpr hv
  · have hc : (0 : ℚ) < cores := by exact_mod_cast hpos
    rw [share_of_pos hpos, ExactFloat.fin_lt_fin, div_lt_iff₀ (by norm_num), min_lt_iff,
      div_lt_iff₀ hc]
    constructor
    · intro hcases
      obtain hlt | hlt := hcases
      · linarith
      · linarith
    · intro hlt
      right
      linarith

/-- and so does the share of a load, out of a hundred for each core. -/
theorem grades_share (cores : ℕ) {load : ℚ} (hload : 0 ≤ load) :
    Kind.loadAverage.Grades compare ⟨load, 100 * cores⟩ (share cores load) where
  state states := by
    rw [Kind.computeState_eq, Kind.entry]
    have hfirst : (Kind.loadAverage.defaultStates.first
        fun state => share cores load < .fin state.value) =
        Kind.loadAverage.defaultStates.first fun state => load < state.value * (100 * cores) := by
      apply List.find?_congr
      intro state hstate
      rw [decide_eq_decide]
      exact share_lt_iff hload (Kind.value_le_one .loadAverage state hstate)
    rw [hfirst]
  entry_isSome := Kind.entry_isSome_iff .loadAverage (by positivity)
  entry_mono _ _ _ htotal hused := Kind.entry_mono .loadAverage htotal hused

theorem remembers_after {h : Host} {a : LoadAverage} (ha : Constructed h a)
    {rs : List (Option Load)} (hrs : ∀ l, some l ∈ rs → 0 ≤ l.l1) :
    Kind.loadAverage.Remembers compare (.fin 0) (rs.filterMap (reading a.cores)).getLast?
      (a.after rs).value := by
  obtain ⟨htype, hvalue, -⟩ := ha.members
  rw [← hvalue]
  apply Kind.remembers_run .loadAverage (remembering a.cores) (fun _ => rfl) ⟨htype, rfl⟩
  intro r hr reading hreading
  cases r with
  | none => cases hreading
  | some l =>
    obtain rfl := Option.some.inj hreading
    exact grades_share a.cores (hrs l hr)

end LoadAverage

/-! ## The three agents -/

end SysInfo.Agent
