import SysInfo.Lib.Simulation
import SysInfo.Storage.History

/-!
# What the storage part of a process amounts to

    process:   construct ── tick ── tick ── construct (throws) ── tick ── …   Controller
                  │          ·       ·          │                  ·
    monitor:   request ───────────────────── request ─────────────────── …   Monitor

A `Monitor` has the names of the disks and a timer, and the one thing that can be asked of it is to
watch some more. It sees the constructions of the process, of each of them the physical disks and
the requested interval, and it does not see the ticks. Every run of the process is explained by the
run of the monitor (`monitoring`), down to the reports of every action (`reports_of_history`).
-/

namespace SysInfo.Storage

open Lib (ExactFloat Simulation)
open Lib.FirstOccurrence

/-- A physical disk of a listing, as a construction finds it. -/
structure Candidate where
  name : String
  /-- Its block size can be read. -/
  readable : Bool
  deriving DecidableEq, Repr

/-- What a construction asks for. -/
structure Request where
  candidates : List Candidate
  /-- The interval of the node, 0 for none. -/
  interval : ℕ
  deriving DecidableEq, Repr

/-- The disks that are watched, in the order in which they were first offered, and the timer. -/
structure Monitor where
  watched : List String := []
  interval : ℕ := 0
  running : Bool := false
  deriving DecidableEq, Repr

namespace Monitor

/-- How many of the candidates are accepted when some disks are known: those in front of the first
one that is neither known nor readable. -/
def accepted (same : DecEquiv String) : List String → List Candidate → ℕ
  | _, [] => 0
  | known, d :: ds =>
    if Covers same known d.name ∨ d.readable = true then
      accepted same (known ++ [d.name]) ds + 1
    else 0

/-- The faster one of the interval there is, a minute when there is none, and the one requested. -/
def faster (interval requested : ℕ) : ℕ :=
  let saved := if interval = 0 then 60000 else interval
  if requested = 0 then saved else min saved requested

/-- One request: the disks that are accepted are watched too, and when these are all the timer runs
at the faster interval. -/
def request (same : DecEquiv String) (m : Monitor) (r : Request) : Monitor :=
  let n := accepted same m.watched r.candidates
  let offered := (r.candidates.take n).map (·.name)
  let watched := (m.watched ++ offered).eraseDupsBy same.same
  if n = r.candidates.length then
    { watched := watched, interval := faster m.interval r.interval, running := true }
  else { m with watched := watched }

/-- What is reported: no data without a disk, and otherwise a line of zeros for each. -/
def report (unit : SizeUnit) (m : Monitor) : Except Exception (List Row) :=
  if m.watched = [] then .error (.systemError ENODATA none)
  else
    let zero := "0.00 " ++ unit.entry.2 ++ "/s"
    .ok (m.watched.map fun name => { device := name, read := zero, write := zero })

end Monitor

/-- The candidates of a listing. -/
def candidates (h : Host) (listing : List Stat) : List Candidate :=
  (listing.filter (Stat.physical h)).map fun unit =>
    { name := unit.device, readable := (unit.blocksize h).isOk }

/-- What the monitor sees of an event: a construction that has a unit and a listing. -/
def Event.view (requested : XmlNode → ℕ) : Event → Option Request
  | .construct h node =>
    match unitFactory node, Stat.get h with
    | .ok _, .ok listing =>
      some { candidates := candidates h listing, interval := requested node }
    | _, _ => none
  | .tick _ => none

/-- What a controller is as a monitor. -/
def Controller.abs {τ : Type} (M : TimerApi τ) (c : Controller τ) : Monitor where
  watched := c.names
  interval := M.interval c.timer
  running := M.enabled c.timer

/-- A disk as the constructor leaves it. -/
def Data.Fresh (d : Data) : Prop := d = { device := d.device, blocksize := d.blocksize }

variable {τ : Type} {same : DecEquiv String} {h : Host}

/-! ## Candidates -/

theorem candidates_cons (h : Host) (unit : Stat) (rest : List Stat) :
    candidates h (unit :: rest) =
      if unit.physical h then
        { name := unit.device, readable := (unit.blocksize h).isOk } :: candidates h rest
      else candidates h rest := by
  unfold candidates
  by_cases hp : unit.physical h = true
  · simp [hp]
  · simp [hp]

/-- Of what is known only the membership matters. -/
theorem accepted_congr {known known' : List String}
    (hcov : ∀ x, Covers same known x ↔ Covers same known' x) (ds : List Candidate) :
    Monitor.accepted same known ds = Monitor.accepted same known' ds := by
  induction ds generalizing known known' with
  | nil => rfl
  | cons d ds ih =>
    have hnext : ∀ x, Covers same (known ++ [d.name]) x ↔ Covers same (known' ++ [d.name]) x := by
      intro x
      rw [covers_append, covers_append, hcov]
    simp only [Monitor.accepted, hcov, ih hnext]

/-- The disks that are watched after a request. -/
theorem request_watched (m : Monitor) (r : Request) :
    (m.request same r).watched = (m.watched ++
      (r.candidates.take (Monitor.accepted same m.watched r.candidates)).map
        (·.name)).eraseDupsBy same.same := by
  unfold Monitor.request
  dsimp only
  split <;> rfl

theorem request_of_all {m : Monitor} {r : Request}
    (hall : Monitor.accepted same m.watched r.candidates = r.candidates.length) :
    m.request same r =
      { watched := (m.request same r).watched
        interval := Monitor.faster m.interval r.interval
        running := true } := by
  rw [request_watched]
  exact if_pos hall

theorem request_of_not_all {m : Monitor} {r : Request}
    (hall : Monitor.accepted same m.watched r.candidates ≠ r.candidates.length) :
    m.request same r = { m with watched := (m.request same r).watched } := by
  rw [request_watched]
  exact if_neg hall

/-- **One call of `push_back`**, as the monitor sees it: it returns for a candidate that is known or
readable. -/
theorem pushBack_ok_iff (same : DecEquiv String) (h : Host) (unit : Stat) (c : Controller τ) :
    (∃ b c', (Controller.pushBack same h unit).run c = .ok b c') ↔
      Covers same c.names unit.device ∨ (unit.blocksize h).isOk = true := by
  have hread : (unit.blocksize h).isOk = true ↔ ∃ n, unit.blocksize h = .ok n := by
    cases unit.blocksize h <;> simp [Except.isOk, Except.toBool]
  rw [hread, ← Controller.ofStat_ok_iff, Controller.pushBack_run]
  by_cases hc : Covers same c.names unit.device
  · rw [if_pos hc]
    exact iff_of_true ⟨_, _, rfl⟩ (Or.inl hc)
  · rw [if_neg hc]
    cases Data.ofStat h unit with
    | ok d => exact iff_of_true ⟨_, _, rfl⟩ (Or.inr ⟨d, rfl⟩)
    | error e => simp [hc]

/-- After a call that returns the name is known. -/
theorem accepted_of_pushBack_ok {unit : Stat} {c c' : Controller τ} {b : Bool}
    (hok : (Controller.pushBack same h unit).run c = .ok b c') (ds : List Candidate) :
    Monitor.accepted same c'.names ds = Monitor.accepted same (c.names ++ [unit.device]) ds := by
  apply accepted_congr
  intro x
  rw [Controller.names_of_pushBack_ok hok, covers_insertNew_iff]

/-! ## The loop of the constructor -/

/-- The loop offers the candidates that are accepted. -/
theorem reached_eq (listing : List Stat) (c : Controller τ) :
    Action.reached same h c listing =
      ((candidates h listing).take
        (Monitor.accepted same c.names (candidates h listing))).map (·.name) := by
  induction listing generalizing c with
  | nil => rfl
  | cons unit rest ih =>
    rw [Action.reached, candidates_cons]
    split
    · have hok := pushBack_ok_iff same h unit c
      rw [Monitor.accepted]
      cases hpush : (Controller.pushBack same h unit).run c with
      | ok b c' =>
        rw [if_pos (hok.mp ⟨b, c', hpush⟩), List.take_succ_cons, List.map_cons]
        dsimp only
        rw [ih c', accepted_of_pushBack_ok hpush]
      | error e c' =>
        -- the candidate that throws is not offered any more, nor is one behind it
        rw [if_neg (mt hok.mpr (Lib.not_exists_ok hpush))]
        rfl
    · exact ih c

/-- It returns when all are accepted. -/
theorem watch_ok_iff_accepted (same : DecEquiv String) (h : Host) (listing : List Stat)
    (c : Controller τ) :
    (∃ c', (Action.watch same h listing).run c = .ok () c') ↔
      Monitor.accepted same c.names (candidates h listing) = (candidates h listing).length := by
  induction listing generalizing c with
  | nil => exact iff_of_true ⟨c, rfl⟩ rfl
  | cons unit rest ih =>
    rw [Action.watch_cons_run, candidates_cons]
    split
    · have hok := pushBack_ok_iff same h unit c
      rw [Monitor.accepted]
      cases hpush : (Controller.pushBack same h unit).run c with
      | ok b c' =>
        rw [if_pos (hok.mp ⟨b, c', hpush⟩)]
        dsimp only
        rw [ih c', accepted_of_pushBack_ok hpush, List.length_cons, Nat.add_right_cancel_iff]
      | error e c' =>
        apply iff_of_false
        · intro hrun
          obtain ⟨c₁, hrun⟩ := hrun
          cases hrun
        · rw [if_neg (mt hok.mpr (Lib.not_exists_ok hpush))]
          simp
    · exact ih c

/-- What every call of `push_back` for a physical disk of the listing keeps, the loop keeps. -/
theorem left_watch_of_pushBack {P : Controller τ → Prop} {listing : List Stat}
    (hpush : ∀ unit ∈ listing, unit.physical h = true → ∀ c b c',
      (Controller.pushBack same h unit).run c = .ok b c' → P c → P c')
    {c : Controller τ} (hc : P c) :
    P (left ((Action.watch same h listing).run c)) := by
  induction listing generalizing c with
  | nil => exact hc
  | cons unit rest ih =>
    have ih' := @ih fun unit hunit => hpush unit (List.mem_cons_of_mem _ hunit)
    rw [Action.watch_cons_run]
    split
    · next hp =>
      cases hrun : (Controller.pushBack same h unit).run c with
      | ok b c' => exact ih' (hpush unit (by simp) hp c b c' hrun hc)
      | error e c' =>
        -- the throw ends the loop, with the controller of the call before
        rw [Controller.eq_of_pushBack_error hrun]
        exact hc
    · exact ih' hc

theorem timer_watch (same : DecEquiv String) (h : Host) (listing : List Stat) (c : Controller τ) :
    (left ((Action.watch same h listing).run c)).timer = c.timer := by
  apply left_watch_of_pushBack (P := fun c' => c'.timer = c.timer) _ rfl
  intro unit _ _ c₁ b c' hrun hc
  obtain ⟨-, -, rfl⟩ | ⟨-, -, d, -, rfl⟩ := Controller.pushBack_cases hrun
  · exact hc
  · exact hc

theorem fresh_ofStat {unit : Stat} {d : Data} (hd : Data.ofStat h unit = .ok d) : d.Fresh := by
  obtain ⟨n, -, rfl⟩ := Data.ofStat_eq_ok_iff.mp hd
  rfl

/-- What holds of every disk that is made of a physical one of a listing, and of all disks before an
event, holds of all disks after it, -/
theorem disks_run {M : TimerApi τ} {P : Data → Prop} (e : Event)
    (hinsert : ∀ h node listing, e = .construct h node → Stat.get h = .ok listing →
      ∀ unit ∈ listing, unit.physical h = true → ∀ d, Data.ofStat h unit = .ok d → P d)
    {c : Controller τ} (hc : ∀ d ∈ c.disks, P d) : ∀ d ∈ (e.run same M c).disks, P d := by
  cases e with
  | tick statOf => exact hc
  | construct h node =>
    show ∀ d ∈ (left ((Action.construct same M h node).run c)).disks, P d
    cases hunit : unitFactory node with
    | error e =>
      rw [Action.construct_run_of_unit_error hunit]
      exact hc
    | ok unit =>
      cases hget : Stat.get h with
      | error e =>
        rw [Action.construct_run_of_get_error hunit hget]
        exact hc
      | ok listing =>
        have hloop : ∀ d ∈ (left ((Action.watch same h listing).run c)).disks, P d := by
          apply left_watch_of_pushBack (P := fun c' => ∀ d ∈ c'.disks, P d) _ hc
          intro unit hmem hp c₁ b c' hrun hkept
          obtain ⟨-, -, rfl⟩ | ⟨-, -, d, hd, rfl⟩ := Controller.pushBack_cases hrun
          · exact hkept
          · intro d' hd'
            obtain hd' | hd' := List.mem_append.mp hd'
            · exact hkept d' hd'
            · rw [List.mem_singleton.mp hd']
              exact hinsert h node listing rfl hget unit hmem hp d hd
        rw [Action.construct_run hunit hget]
        cases hwatch : (Action.watch same h listing).run c with
        | ok u c' =>
          rw [hwatch] at hloop
          exact hloop
        | error e c' =>
          rw [hwatch] at hloop
          exact hloop

/-- and after a history. -/
theorem disks_history {M : TimerApi τ} {P : Data → Prop} (events : List Event)
    (hinsert : ∀ h node listing, .construct h node ∈ events → Stat.get h = .ok listing →
      ∀ unit ∈ listing, unit.physical h = true → ∀ d, Data.ofStat h unit = .ok d → P d)
    {c : Controller τ} (hc : ∀ d ∈ c.disks, P d) :
    ∀ d ∈ (history same M c events).disks, P d := by
  induction events generalizing c with
  | nil => exact hc
  | cons e events ih =>
    apply ih
    · intro h node listing hmem
      exact hinsert h node listing (List.mem_cons_of_mem _ hmem)
    · apply disks_run e _ hc
      rintro h node listing rfl
      exact hinsert h node listing (by simp)

/-! ## The simulation -/

section Simulation

variable {M : TimerApi τ} {requested : XmlNode → ℕ}

theorem abs_setup (hM : M.Lawful requested) (node : XmlNode) (c : Controller τ) :
    (c.setup M node).abs M =
      { watched := c.names
        interval := Monitor.faster (M.interval c.timer) (requested node)
        running := true } := by
  unfold Controller.abs
  rw [Controller.interval_setup hM.toIntervalLaws, Controller.enabled_setup hM]
  rfl

/-- **A construction is a request.** -/
theorem abs_construct (hM : M.Lawful requested) {node : XmlNode} {unit : SizeUnit}
    {listing : List Stat} (hunit : unitFactory node = .ok unit) (hget : Stat.get h = .ok listing)
    {c : Controller τ} (hc : Distinct same c.names) :
    (left ((Action.construct same M h node).run c)).abs M =
      (c.abs M).request same
        { candidates := candidates h listing, interval := requested node } := by
  set r : Request := { candidates := candidates h listing, interval := requested node } with hr
  have hnames : (left ((Action.watch same h listing).run c)).names =
      ((c.abs M).request same r).watched := by
    rw [request_watched, Action.names_watch, reached_eq]
    nth_rewrite 1 [← eraseDupsBy_of_distinct hc]
    rw [foldl_insertNew_eraseDupsBy]
    rfl
  have htimer := timer_watch same h listing c
  have hok := watch_ok_iff_accepted same h listing c
  -- the disks are those the loop leaves in either case; `setup` is reached only if it returns
  rw [Action.construct_run hunit hget]
  cases hwatch : (Action.watch same h listing).run c with
  | ok u c' =>
    rw [hwatch] at hnames htimer
    change c'.names = _ at hnames
    change c'.timer = _ at htimer
    show (c'.setup M node).abs M = _
    rw [request_of_all (hok.mp ⟨c', hwatch⟩), abs_setup hM, hnames, htimer]
    rfl
  | error e c' =>
    rw [hwatch] at hnames htimer
    change c'.names = _ at hnames
    change c'.timer = _ at htimer
    show c'.abs M = _
    rw [request_of_not_all, Controller.abs, hnames, htimer]
    · rfl
    · intro hall
      obtain ⟨c₁, hrun⟩ := hok.mpr hall
      exact Lib.not_exists_ok hwatch ⟨(), c₁, hrun⟩

/-- A construction that has no unit or no listing does nothing. -/
theorem run_of_view_eq_none {e : Event} (hview : e.view requested = none) (c : Controller τ) :
    e.run same M c = c := by
  cases e with
  | tick statOf => rfl
  | construct h node =>
    show left ((Action.construct same M h node).run c) = c
    cases hunit : unitFactory node with
    | error e => rw [Action.construct_run_of_unit_error hunit]; rfl
    | ok unit =>
      cases hget : Stat.get h with
      | error e => rw [Action.construct_run_of_get_error hunit hget]; rfl
      | ok listing => simp [Event.view, hunit, hget] at hview

theorem abs_run_of_view_eq_some (hM : M.Lawful requested) {e : Event} {r : Request}
    (hview : e.view requested = some r) {c : Controller τ} (hc : Distinct same c.names) :
    (e.run same M c).abs M = (c.abs M).request same r := by
  cases e with
  | tick statOf => cases hview
  | construct h node =>
    simp only [Event.view] at hview
    split at hview
    · next unit listing hunit hget =>
      obtain rfl := Option.some.inj hview
      exact abs_construct hM hunit hget hc
    · cases hview

/-- No event shows on a stored disk. -/
theorem fresh_run (e : Event) {c : Controller τ} (hc : ∀ d ∈ c.disks, d.Fresh) :
    ∀ d ∈ (e.run same M c).disks, d.Fresh := by
  apply disks_run e _ hc
  intro _ _ _ _ _ unit _ _ d hd
  exact fresh_ofStat hd

/-- **The process is a monitor**, as long as no two of its disks are equivalent and all of them are
as they were inserted. -/
def monitoring (same : DecEquiv String) (hM : M.Lawful requested) :
    Simulation (Event.run same M) (Monitor.request same) where
  Inv c := Distinct same c.names ∧ ∀ d ∈ c.disks, d.Fresh
  abs := Controller.abs M
  view := Event.view requested
  keeps c e hc := ⟨distinct_history [e] hc.1, fresh_run e hc.2⟩
  hidden c e _ hview := by rw [run_of_view_eq_none hview]
  visible c e _ hc hview := abs_run_of_view_eq_some hM hview hc.1

/-! ## Reports -/

theorem speedText_zero (unit : SizeUnit) :
    speedText (.fin 0) unit = "0.00 " ++ unit.entry.2 ++ "/s" := by
  have hzero : ExactFloat.fin 0 / .fin unit.entry.1 = .fin 0 := by
    rw [ExactFloat.fin_div_fin, zero_div]
    cases unit <;> simp [SizeUnit.entry]
  have htext : fixed2 (.fin 0) = "0.00" := by
    simp [fixed2, roundHalfEven]
    rfl
  rw [speedText, hzero, htext]
  simp [String.append_assoc]

theorem call_eq (a : Action) (c : Controller τ) :
    a.call c =
      if c.names = [] then .error (.systemError ENODATA none) else .ok (c.disks.map a.row) := by
  obtain ⟨disks, timer⟩ := c
  cases disks <;> rfl

/-- Of disks as they were inserted the report has zeros. -/
theorem call_of_fresh (M : TimerApi τ) {c : Controller τ} (hc : ∀ d ∈ c.disks, d.Fresh)
    (a : Action) : a.call c = (c.abs M).report a.unit := by
  have hrow : ∀ d ∈ c.disks, a.row d =
      { device := d.device
        read := "0.00 " ++ a.unit.entry.2 ++ "/s"
        write := "0.00 " ++ a.unit.entry.2 ++ "/s" } := by
    intro d hd
    rw [hc d hd, Action.row, speedText_zero]
  rw [call_eq, List.map_congr_left hrow]
  unfold Monitor.report
  dsimp only [Controller.abs, Controller.names]
  rw [List.map_map]
  rfl

/-- The monitor a process is that has not done anything yet. -/
def Monitor.initial (M : TimerApi τ) (t : τ) : Monitor where
  interval := M.interval t
  running := M.enabled t

theorem inv_initial (same : DecEquiv String) (hM : M.Lawful requested) (t : τ) :
    (monitoring same hM).Inv { timer := t } := by
  refine ⟨List.Pairwise.nil, ?_⟩
  intro d hd
  cases hd

theorem fresh_history (hM : M.Lawful requested) (t : τ) (events : List Event) :
    ∀ d ∈ (history same M { timer := t } events).disks, d.Fresh :=
  ((monitoring same hM).inv_run (inv_initial same hM t) events).2

/-- After any history the process is the monitor after its requests. -/
theorem abs_history (same : DecEquiv String) (hM : M.Lawful requested) (t : τ)
    (events : List Event) :
    (history same M { timer := t } events).abs M =
      (events.filterMap (Event.view requested)).foldl (Monitor.request same)
        (Monitor.initial M t) :=
  (monitoring same hM).abs_run (inv_initial same hM t) events

/-- **What is reported over the life of a process.** After any history, with constructions that
return and constructions that throw and ticks with any readings, the disks and the timer are those
of the monitor after the requests of the history, and what any action reports is what the monitor
reports: an error when no disk is watched, and otherwise a line of zeros for each disk. -/
theorem reports_of_history (same : DecEquiv String) (M : TimerApi τ) (requested : XmlNode → ℕ)
    (hM : M.Lawful requested) (t : τ) (events : List Event) :
    let c := history same M { timer := t } events
    let m := (events.filterMap (Event.view requested)).foldl (Monitor.request same)
      (Monitor.initial M t)
    c.abs M = m ∧ ∀ a : Action, a.call c = m.report a.unit := by
  intro c m
  have habs : c.abs M = m := abs_history same hM t events
  refine ⟨habs, ?_⟩
  intro a
  rw [← habs]
  exact call_of_fresh M (fresh_history hM t events) a

theorem candidates_withDrive (drive : Except Errno Unit) :
    candidates (withDrive drive) [sr0.stat, (sda 7).stat] =
      [{ name := "sr0", readable := drive.isOk }, { name := "sda", readable := true }] := by
  have hsr0 : sr0.stat.device = "sr0" := sr0.stat_device
  have hsda : (sda 7).stat.device = "sda" := (sda 7).stat_device
  have hphysical : sr0.stat.physical (withDrive drive) = true ∧
      (sda 7).stat.physical (withDrive drive) = true := by
    rw [Stat.physical, Stat.physical, hsr0, hsda]
    simp only [withDrive]
    decide
  have hread : (sr0.stat.blocksize (withDrive drive)).isOk = drive.isOk ∧
      ((sda 7).stat.blocksize (withDrive drive)).isOk = true := by
    rw [Stat.blocksize, Stat.blocksize, hsr0, hsda]
    cases drive <;> exact ⟨rfl, rfl⟩
  rw [candidates, List.filter_cons_of_pos hphysical.1, List.filter_cons_of_pos hphysical.2]
  simp only [List.filter_nil, List.map_cons, List.map_nil, hread, hsr0, hsda]

theorem unitFactory_askingFor (ms : UInt32) : unitFactory (askingFor ms) = .ok .kilobyte := by
  unfold unitFactory
  dsimp only [askingFor]
  decide

/-- A process on a machine with an optical drive: no disc at the first construction, one at the
second, and a tick in between. -/
def twoTries : List Event :=
  [.construct (withDrive (.error ENOMEDIUM)) (askingFor 5000),
    .tick fun _ name => .ok { device := name, read := { blocks := 1000, time := 500 } },
    .construct (withDrive (.ok ())) (askingFor 1000)]

theorem view_twoTries :
    twoTries.filterMap (Event.view fun node => ((node.asUint "timer-interval").getD 0).toNat) =
      [{ candidates := [{ name := "sr0", readable := false }, { name := "sda", readable := true }]
         interval := 5000 },
       { candidates := [{ name := "sr0", readable := true }, { name := "sda", readable := true }]
         interval := 1000 }] := by
  simp [twoTries, Event.view, unitFactory_askingFor, get_withDrive, candidates_withDrive]
  decide

theorem reports_of_history_twoTries :
    ({ unit := .kilobyte } : Action).call
        (history (DecEquiv.eq String) plainTimer { timer := (0, false) } twoTries) =
      .ok [{ device := "sr0", read := "0.00 KB/s", write := "0.00 KB/s" },
        { device := "sda", read := "0.00 KB/s", write := "0.00 KB/s" }] := by
  have h := (reports_of_history (DecEquiv.eq String) plainTimer _ plainTimer_lawful (0, false)
    twoTries).2 { unit := .kilobyte }
  rw [view_twoTries] at h
  rw [h]
  decide

/-- **Reports depend on the requests only.** Two processes that were asked the same, with any
readings of the disks, any ticks and any failed constructions besides, watch the same disks, run at
the same interval and report the same. -/
theorem reports_depend_on_requests (same : DecEquiv String) (M : TimerApi τ)
    (requested : XmlNode → ℕ) (hM : M.Lawful requested) (t : τ) (events events' : List Event)
    (hasked : events.filterMap (Event.view requested) =
      events'.filterMap (Event.view requested)) :
    let c := history same M { timer := t } events
    let c' := history same M { timer := t } events'
    c.names = c'.names ∧ M.interval c.timer = M.interval c'.timer ∧
      M.enabled c.timer = M.enabled c'.timer ∧ ∀ a : Action, a.call c = a.call c' := by
  intro c c'
  have hinit := inv_initial same hM t
  have habs : c.abs M = c'.abs M := (monitoring same hM).abs_run_congr hinit hinit rfl hasked
  refine ⟨congrArg Monitor.watched habs, congrArg Monitor.interval habs,
    congrArg Monitor.running habs, ?_⟩
  intro a
  rw [call_of_fresh M (fresh_history hM t events), habs,
    ← call_of_fresh M (fresh_history hM t events')]

/-- A tick in which no disk can be read, -/
def failingTick : Event := .tick fun _ _ => .error unexpectedFormat

/-- before and after the rest, does not show. -/
theorem reports_depend_on_requests_twoTries :
    ({ unit := .megabyte } : Action).call
        (history (DecEquiv.eq String) plainTimer { timer := (0, false) } twoTries) =
      ({ unit := .megabyte } : Action).call
        (history (DecEquiv.eq String) plainTimer { timer := (0, false) }
          (failingTick :: (twoTries ++ [failingTick]))) := by
  apply (reports_depend_on_requests (DecEquiv.eq String) plainTimer _ plainTimer_lawful (0, false)
    twoTries _ _).2.2.2
  rw [List.filterMap_cons_none rfl, List.filterMap_append]
  exact (List.append_nil _).symm

/-! ## Asking again -/

/-- What is covered by the disks accepted before is accepted again, and no other. -/
theorem accepted_again {known known' : List String} {ds : List Candidate}
    (hcov : ∀ x, Covers same known' x ↔
      Covers same (known ++ (ds.take (Monitor.accepted same known ds)).map (·.name)) x) :
    Monitor.accepted same known' ds = Monitor.accepted same known ds := by
  induction ds generalizing known known' with
  | nil => rfl
  | cons d ds ih =>
    rw [Monitor.accepted] at hcov
    rw [Monitor.accepted, Monitor.accepted]
    by_cases hd : Covers same known d.name ∨ d.readable = true
    · rw [if_pos hd, List.take_succ_cons, List.map_cons] at hcov
      have hd' : Covers same known' d.name := by
        apply (hcov d.name).mpr
        exact Covers.of_mem (by simp)
      rw [if_pos hd, if_pos (Or.inl hd'), ih]
      intro x
      -- the name is covered on both sides already
      rw [covers_append, hcov, List.append_assoc, List.singleton_append, covers_append,
        covers_cons, covers_singleton]
      tauto
    · rw [if_neg hd] at hcov
      simp only [List.take_zero, List.map_nil, List.append_nil] at hcov
      rw [if_neg hd, if_neg]
      rwa [hcov]

theorem faster_again (interval requested : ℕ) :
    Monitor.faster (Monitor.faster interval requested) requested =
      Monitor.faster interval requested := by
  unfold Monitor.faster
  dsimp only
  split_ifs <;> omega

theorem accepted_request (same : DecEquiv String) (m : Monitor) (r : Request) :
    Monitor.accepted same (m.request same r).watched r.candidates =
      Monitor.accepted same m.watched r.candidates := by
  apply accepted_again
  intro x
  rw [request_watched, covers_eraseDupsBy]

/-- **A request is idempotent.** -/
theorem request_again (m : Monitor) (r : Request) :
    (m.request same r).request same r = m.request same r := by
  have haccepted := accepted_request same m r
  have hwatched : ((m.request same r).request same r).watched = (m.request same r).watched := by
    rw [request_watched, haccepted, request_watched, eraseDupsBy_append_again]
  by_cases hall : Monitor.accepted same m.watched r.candidates = r.candidates.length
  · rw [request_of_all (haccepted.trans hall), hwatched, request_of_all hall]
    dsimp only
    rw [faster_again]
  -- a request that stops half way stops at the same candidate the second time
  · rw [request_of_not_all (haccepted.trans_ne hall), hwatched]

/-- Whether a construction returns can be seen by the monitor. -/
theorem construct_returns_iff (same : DecEquiv String) (M : TimerApi τ) {node : XmlNode}
    {unit : SizeUnit} {listing : List Stat} (hunit : unitFactory node = .ok unit)
    (hget : Stat.get h = .ok listing) (c : Controller τ) :
    (∃ a c', (Action.construct same M h node).run c = .ok a c') ↔
      Monitor.accepted same c.names (candidates h listing) = (candidates h listing).length := by
  rw [Action.construct_ok_iff hget, ← Action.watch_ok_iff, watch_ok_iff_accepted]
  exact and_iff_right ⟨unit, hunit⟩

theorem construct_again (hM : M.Lawful requested) (h : Host) (node : XmlNode) {c : Controller τ}
    (hc : Distinct same c.names) :
    let once := left ((Action.construct same M h node).run c)
    (left ((Action.construct same M h node).run once)).abs M = once.abs M ∧
      ((∃ a c', (Action.construct same M h node).run once = .ok a c') ↔
        ∃ a c', (Action.construct same M h node).run c = .ok a c') := by
  intro once
  cases hview : (Event.construct h node).view requested with
  | none =>
    have honce : once = c := run_of_view_eq_none hview c
    rw [honce]
    exact ⟨congrArg _ honce, Iff.rfl⟩
  | some r =>
    have habs : once.abs M = (c.abs M).request same r := abs_run_of_view_eq_some hM hview hc
    have hdistinct : Distinct same once.names := distinct_history [.construct h node] hc
    constructor
    · have htwice := abs_run_of_view_eq_some hM hview hdistinct
      exact htwice.trans (by rw [habs, request_again])
    · simp only [Event.view] at hview
      split at hview
      · next unit listing hunit hget =>
        obtain rfl := Option.some.inj hview
        have hnames : once.names = ((c.abs M).request same _).watched :=
          congrArg Monitor.watched habs
        rw [construct_returns_iff same M hunit hget, construct_returns_iff same M hunit hget,
          hnames, accepted_request same (c.abs M)
            { candidates := candidates h listing, interval := requested node }]
        rfl
      · cases hview

/-- **Trying again on an unchanged machine changes nothing.** At any time in the life of a process,
a construction that is made twice, with any ticks in between, returns the second time if and only if
it did the first, and leaves the disks, the timer and the reports as they were after the first. -/
theorem retry_changes_nothing (same : DecEquiv String) (M : TimerApi τ) (requested : XmlNode → ℕ)
    (hM : M.Lawful requested) (t : τ) (events : List Event) (h : Host) (node : XmlNode)
    (ticks : List Tick) :
    let c := history same M { timer := t } events
    let once := runTicks (left ((Action.construct same M h node).run c)) ticks
    let twice := left ((Action.construct same M h node).run once)
    twice.abs M = once.abs M ∧ (∀ a : Action, a.call twice = a.call once) ∧
      ((∃ a c', (Action.construct same M h node).run once = .ok a c') ↔
        ∃ a c', (Action.construct same M h node).run c = .ok a c') := by
  intro c once twice
  -- the ticks work on a copy, so `once` is what one event has made of `c`
  have hinv : (monitoring same hM).Inv c := (monitoring same hM).inv_run (inv_initial same hM t) _
  have honce : once = (Event.construct h node).run same M c := runTicks_eq _ ticks
  have hfresh : ∀ d ∈ once.disks, d.Fresh := by
    rw [honce]
    exact fresh_run _ hinv.2
  obtain ⟨habs, hreturns⟩ := construct_again hM h node hinv.1
  have htwice : twice.abs M = once.abs M := by
    show ((Event.construct h node).run same M once).abs M = _
    rw [honce]
    exact habs
  refine ⟨htwice, ?_, ?_⟩
  · intro a
    have hfresh' : ∀ d ∈ twice.disks, d.Fresh := fresh_run (.construct h node) hfresh
    rw [call_of_fresh M hfresh', htwice, ← call_of_fresh M hfresh]
  · rw [honce]
    exact hreturns

/-- The construction without a disc in the drive. -/
def withoutDisc : EStateM Fault (Controller (ℕ × Bool)) Action :=
  Action.construct (DecEquiv.eq String) plainTimer (withDrive (.error ENOMEDIUM)) (askingFor 5000)

theorem retry_changes_nothing_withDrive :
    let once := runTicks (left (withoutDisc.run { timer := (0, false) })) []
    (left (withoutDisc.run once)).abs plainTimer = once.abs plainTimer :=
  (retry_changes_nothing (DecEquiv.eq String) plainTimer _ plainTimer_lawful (0, false) []
    (withDrive (.error ENOMEDIUM)) (askingFor 5000) []).1

end Simulation

/-! ## The timer -/

/-- Candidates that can all be read are all accepted. -/
theorem accepted_of_readable {ds : List Candidate} (hread : ∀ d ∈ ds, d.readable = true)
    (known : List String) : Monitor.accepted same known ds = ds.length := by
  induction ds generalizing known with
  | nil => rfl
  | cons d ds ih =>
    rw [Monitor.accepted, if_pos (Or.inr (hread d (by simp))), List.length_cons]
    rw [ih fun d hd => hread d (List.mem_cons_of_mem _ hd)]

/-- The node of a construction that returns. -/
def Event.returned (same : DecEquiv String) (M : TimerApi τ) (c : Controller τ) :
    Event → Option XmlNode
  | .construct h node =>
    match (Action.construct same M h node).run c with
    | .ok _ _ => some node
    | .error _ _ => none
  | .tick _ => none

/-- The nodes of all the constructions of a history that return. -/
def returned (same : DecEquiv String) (M : TimerApi τ) : Controller τ → List Event → List XmlNode
  | _, [] => []
  | c, e :: events =>
    (e.returned same M c).toList ++ returned same M (e.run same M c) events

section Timer

variable {M : TimerApi τ} {requested : XmlNode → ℕ}

theorem returned_construct (M : TimerApi τ) {node : XmlNode} {unit : SizeUnit}
    {listing : List Stat} (hunit : unitFactory node = .ok unit) (hget : Stat.get h = .ok listing)
    (c : Controller τ) :
    (Event.construct h node).returned same M c =
      if Monitor.accepted same c.names (candidates h listing) = (candidates h listing).length then
        some node
      else none := by
  have hiff := construct_returns_iff same M hunit hget c
  cases hrun : (Action.construct same M h node).run c with
  | ok a c' =>
    rw [if_pos (hiff.mp ⟨a, c', hrun⟩)]
    simp only [Event.returned, hrun]
  | error e c' =>
    rw [if_neg (mt hiff.mpr (Lib.not_exists_ok hrun))]
    simp only [Event.returned, hrun]

/-- What setting up makes of the timer does not depend on the disks. -/
theorem timer_setupAll_congr (M : TimerApi τ) (nodes : List XmlNode) {c c' : Controller τ}
    (htimer : c.timer = c'.timer) :
    (Controller.setupAll M nodes c).timer = (Controller.setupAll M nodes c').timer := by
  induction nodes generalizing c c' with
  | nil => exact htimer
  | cons node nodes ih =>
    apply ih
    simp only [Controller.setup, htimer]

/-- **What an event does to the timer**: a construction that returns sets it up, and nothing else
touches it. -/
theorem timer_run (e : Event) (c : Controller τ) :
    (e.run same M c).timer =
      (Controller.setupAll M (e.returned same M c).toList c).timer := by
  cases e with
  | tick statOf => rfl
  | construct h node =>
    show (left ((Action.construct same M h node).run c)).timer = _
    unfold Event.returned
    cases hunit : unitFactory node with
    | error e =>
      dsimp only
      rw [Action.construct_run_of_unit_error hunit]
      rfl
    | ok unit =>
      cases hget : Stat.get h with
      | error e =>
        dsimp only
        rw [Action.construct_run_of_get_error hunit hget]
        rfl
      | ok listing =>
        have htimer := timer_watch same h listing c
        dsimp only
        rw [Action.construct_run hunit hget]
        cases hwatch : (Action.watch same h listing).run c with
        | ok u c' =>
          rw [hwatch] at htimer
          exact timer_setupAll_congr M [node] htimer
        | error e c' =>
          rw [hwatch] at htimer
          exact htimer

/-- Over a history the timer has been set up for the constructions that returned. -/
theorem timer_history (events : List Event) (c : Controller τ) :
    (history same M c events).timer =
      (Controller.setupAll M (returned same M c events) c).timer := by
  induction events generalizing c with
  | nil => rfl
  | cons e events ih =>
    have hlater := ih (e.run same M c)
    rw [timer_setupAll_congr M _ (timer_run e c), Controller.setupAll, Controller.setupAll,
      ← List.foldl_append] at hlater
    exact hlater

theorem returned_append (events later : List Event) (c : Controller τ) :
    returned same M c (events ++ later) =
      returned same M c events ++ returned same M (history same M c events) later := by
  induction events generalizing c with
  | nil => rfl
  | cons e events ih =>
    rw [List.cons_append, returned, returned, ih, List.append_assoc]
    rfl

/-- **The timer over the life of a process.** The timer of a process that starts with it unset is
untouched until a construction returns. From then on it is enabled, its interval is the fastest one
of the default and what was asked for by the constructions that returned, whatever else was asked
for by those that threw, and it never gets longer. -/
theorem timer_of_history (same : DecEquiv String) (M : TimerApi τ) (requested : XmlNode → ℕ)
    (hM : M.Lawful requested) (t : τ) (h0 : M.interval t = 0) (events : List Event) :
    let c := history same M { timer := t } events
    let nodes := returned same M { timer := t } events
    (nodes = [] → c.timer = t) ∧
      (nodes ≠ [] →
        IsLeast (Controller.rates requested nodes) (M.interval c.timer) ∧
          M.enabled c.timer = true ∧
          ∀ later, M.interval (history same M c later).timer ≤ M.interval c.timer) := by
  intro c nodes
  have htimer : c.timer = (Controller.setupAll M nodes { timer := t }).timer :=
    timer_history events { timer := t }
  constructor
  · intro hnone
    rw [htimer, hnone]
    rfl
  · intro hsome
    have hleast : IsLeast (Controller.rates requested nodes) (M.interval c.timer) := by
      rw [htimer]
      exact Controller.isLeast_setupAll hM.toIntervalLaws h0 hsome
    refine ⟨hleast, ?_, ?_⟩
    · obtain ⟨front, node, hnodes⟩ := (List.eq_nil_or_concat' nodes).resolve_left hsome
      rw [htimer, hnodes, Controller.setupAll_concat]
      exact Controller.enabled_setup hM node _
    · intro later
      have hmore : (history same M c later).timer =
          (Controller.setupAll M (nodes ++ returned same M c later) { timer := t }).timer := by
        rw [← returned_append, ← timer_history, history, history, List.foldl_append]
        rfl
      have hleast' : IsLeast (Controller.rates requested (nodes ++ returned same M c later))
          (M.interval (history same M c later).timer) := by
        rw [hmore]
        exact Controller.isLeast_setupAll hM.toIntervalLaws h0
          (List.append_ne_nil_of_left_ne_nil hsome _)
      -- what was the fastest rate before is one of the rates still
      apply hleast'.2
      exact hleast.1.imp_right fun ⟨hp, n, hn, hr⟩ => ⟨hp, n, by simp [hn], hr⟩

end Timer

/-- The first of the two tries has not returned, so its 5000 ms do not count. -/
theorem timer_of_history_twoTries :
    IsLeast (Controller.rates (fun node => ((node.asUint "timer-interval").getD 0).toNat)
        [askingFor 1000])
      (plainTimer.interval
        (history (DecEquiv.eq String) plainTimer { timer := (0, false) } twoTries).timer) := by
  have hreturned : returned (DecEquiv.eq String) plainTimer { timer := (0, false) } twoTries =
      [askingFor 1000] := by
    simp only [twoTries, returned]
    rw [returned_construct plainTimer (unitFactory_askingFor _) (get_withDrive _),
      returned_construct plainTimer (unitFactory_askingFor _) (get_withDrive _),
      candidates_withDrive, candidates_withDrive, if_neg (by decide)]
    rw [if_pos]
    · rfl
    · apply accepted_of_readable
      simp [Except.isOk, Except.toBool]
  have h := (timer_of_history (DecEquiv.eq String) plainTimer _ plainTimer_lawful (0, false) rfl
    twoTries).2
  rw [hreturned] at h
  exact (h (by simp)).1

end SysInfo.Storage
