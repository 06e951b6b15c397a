import SysInfo.System.CpuLine

/-!
# Watching the CPU

    ticks     run ──mid──▶ run ++ mid ──mid'──▶ …
    kernel     │ print      │ print               "cpu  4705 150 1120 …"
    library  ofProc       ofProc
                └──operator-=──┘                   what happened in between

The counters are printed, read and subtracted within 64 bits, so that what the library has of an
interval is the ticks of that interval, whatever the counters were before (`sampled_run`).
-/

namespace SysInfo.System

open Lib (IStream tally tally_append)
open Lib.CScan Lib.IStream

/-! ## What the kernel prints -/

/-- The numbers of the line behind their gaps: two spaces in front of the first one, one in front of
the others. -/
def cpuColumns (st : Stat) : List (List Char × ℕ) :=
  ([' ', ' '], st.user.toNat) ::
    StatType.fields.tail.map fun field => ([' '], (st.get field).toNat)

/-- The first line of `/proc/stat` as the kernel prints it. -/
def cpuChars (st : Stat) : List Char := "cpu".toList ++ layout (cpuColumns st)

/-- The machine shows these counters, and nothing but lines with a name in front behind them. -/
def Prints (h : Host) (st : Stat) : Prop :=
  ∃ tail, Follows tail ∧ h.text "/proc/stat" = .ok (String.ofList (cpuChars st ++ tail))

/-- Two objects with the same fields are the same. -/
theorem Stat.ext_fields {st st' : Stat}
    (h : StatType.fields.map st.get = StatType.fields.map st'.get) : st = st' := by
  obtain ⟨u, n, s, i, w, q, sq, t, g, gn⟩ := st
  obtain ⟨u', n', s', i', w', q', sq', t', g', gn'⟩ := st'
  simpa [StatType.fields, Stat.get] using h

theorem map_snd_cpuColumns (st : Stat) :
    (cpuColumns st).map (·.2) = StatType.fields.map fun field => (st.get field).toNat := by
  simp [cpuColumns, StatType.fields, Stat.get]

/-- **What is printed is read back**, every counter of it. -/
theorem ofProc_of_prints {h : Host} {st : Stat} (hs : Prints h st) : Stat.ofProc h = st := by
  obtain ⟨tail, hfollows, hfile⟩ := hs
  obtain ⟨hdigit, hnumber⟩ := noNumber_of_follows blank_nil hfollows
  have hstream : (ifstream (h.text "/proc/stat")).ignore 3 =
      { rest := layout (cpuColumns st) ++ tail } := by
    rw [hfile, ifstream, String.toList_ofList, cpuChars, List.append_assoc]
    simp [ignore, good]
  have hrow : Row ((cpuColumns st).map (·.2)) (layout (cpuColumns st)) := by
    apply row_layout
    · simp [cpuColumns, StatType.fields, Blank, isspace]
    · simp [cpuColumns, StatType.fields]
  have hlt : ∀ v ∈ (cpuColumns st).map (·.2), v < 2 ^ 64 := by
    rw [map_snd_cpuColumns]
    intro v hv
    obtain ⟨field, -, rfl⟩ := List.mem_map.mp hv
    exact UInt64.toNat_lt _
  apply Stat.ext_fields
  rw [map_get_ofProc, hstream,
    extracted_row hrow hlt hdigit hnumber (fun _ => rfl) rfl 10, map_snd_cpuColumns]
  simp [StatType.fields]

/-! ## Samples of a run -/

/-- Machines at successive moments, with the ticks from each one to the next. -/
inductive Samples : List Tick → List (List Tick) → List Host → Prop
  | last {run : List Tick} {h : Host} : Prints h (snapshot run) → Samples run [] [h]
  | cons {run mid : List Tick} {mids : List (List Tick)} {h : Host} {hosts : List Host} :
      Prints h (snapshot run) → Samples (run ++ mid) mids hosts →
      Samples run (mid :: mids) (h :: hosts)

/-- What is seen of the intervals: each sample has the one before it subtracted. -/
def intervals (hosts : List Host) : List Stat :=
  List.zipWith (fun h h' => (Stat.ofProc h').sub (Stat.ofProc h)) hosts hosts.tail

/-- The ticks that a type counts. -/
def charged (ticks : List Tick) : StatType → ℕ
  | .total => ticks.length + ticks.countP Tick.forGuest
  | type => tally Tick.charges ticks type

theorem get_snapshot (ticks : List Tick) (type : StatType) :
    (snapshot ticks).get type = .ofNat (charged ticks type) := by
  cases type with
  | total => exact total_snapshot ticks
  | _ => rfl

theorem charged_append (ticks ticks' : List Tick) (type : StatType) :
    charged (ticks ++ ticks') type = charged ticks type + charged ticks' type := by
  cases type with
  | total =>
    simp only [charged, List.length_append, List.countP_append]
    omega
  | _ => exact tally_append ticks ticks' _

theorem Samples.head_prints {run : List Tick} {mids : List (List Tick)} {hosts : List Host}
    (hs : Samples run mids hosts) : ∃ h rest, hosts = h :: rest ∧ Prints h (snapshot run) := by
  cases hs with
  | last h => exact ⟨_, _, rfl, h⟩
  | cons h _ => exact ⟨_, _, rfl, h⟩

/-- **Each interval is seen as it was.** -/
theorem intervals_eq {run : List Tick} {mids : List (List Tick)} {hosts : List Host}
    (hs : Samples run mids hosts) : intervals hosts = mids.map snapshot := by
  induction hs with
  | last _ => rfl
  | @cons run mid mids h hosts hprints hrest ih =>
    obtain ⟨h', rest, rfl, hprints'⟩ := hrest.head_prints
    -- both ends of the interval are read back, and the run before it cancels
    have hfirst : (Stat.ofProc h').sub (Stat.ofProc h) = snapshot mid := by
      rw [ofProc_of_prints hprints, ofProc_of_prints hprints', snapshot_sub]
    rw [List.map_cons, ← ih, ← hfirst]
    rfl

theorem sum_charged (mids : List (List Tick)) (type : StatType) :
    (mids.map fun mid => UInt64.ofNat (charged mid type)).sum =
      .ofNat (charged mids.flatten type) := by
  induction mids with
  | nil => cases type <;> rfl
  | cons mid mids ih =>
    rw [List.map_cons, List.sum_cons, ih, List.flatten_cons, charged_append, UInt64.ofNat_add]

/-- **What the library has of a run of samples.** However long the machine has been up before, and
wherever the 64 bit counters have gone round, every interval is seen as the ticks it had; asking for
a field by its name gives how often the ticks of each interval were charged to it; and over all the
intervals these add up to what the whole run was charged. -/
theorem sampled_run (run : List Tick) (mids : List (List Tick)) (hosts : List Host)
    (hs : Samples run mids hosts) :
    intervals hosts = mids.map snapshot ∧
      ∀ name type, typeFactory name = .ok type →
        ((intervals hosts).map fun st => st.getByName name) =
            mids.map (fun mid => .ok (.ofNat (charged mid type))) ∧
          ((intervals hosts).map fun st => st.get type).sum =
            .ofNat (charged mids.flatten type) := by
  have hintervals := intervals_eq hs
  refine ⟨hintervals, ?_⟩
  intro name type hname
  have hget : ∀ mid : List Tick,
      (snapshot mid).getByName name = .ok (.ofNat (charged mid type)) := by
    intro mid
    rw [Stat.getByName, hname]
    exact congrArg Except.ok (get_snapshot mid type)
  rw [hintervals, List.map_map, List.map_map]
  constructor
  · apply List.map_congr_left
    intro mid _
    exact hget mid
  · rw [← sum_charged]
    apply congrArg List.sum
    apply List.map_congr_left
    intro mid _
    exact get_snapshot mid type

/-- A machine that shows these counters. -/
def showing (st : Stat) : Host where
  __ := Host.bare
  text _ := .ok (String.ofList (cpuChars st ++ '\n' :: "intr 9".toList))

theorem prints_showing (st : Stat) : Prints (showing st) st := by
  refine ⟨_, Or.inr ⟨_, rfl, ?_⟩, rfl⟩
  intro c hc
  obtain rfl : 'i' = c := Option.some.inj hc
  rfl

/-- A tick of a guest, then two of which one is idle. -/
theorem sampled_run_guest :
    (intervals [showing (snapshot [.user]), showing (snapshot ([.user] ++ [.guest])),
      showing (snapshot ([.user] ++ [.guest] ++ [.idle, .user]))]).map (·.getByName "USER") =
        [.ok 1, .ok 1] :=
  ((sampled_run [.user] [[.guest], [.idle, .user]] _
    (.cons (prints_showing _) (.cons (prints_showing _) (.last (prints_showing _))))).2
      "USER" .user (by decide)).1

end SysInfo.System
