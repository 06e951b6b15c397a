import SysInfo.Storage.Action

/-!
# What happens to the watch list over the life of the process

    {} ──construct──▶ c₁ ──tick──▶ c₁ ──construct (throws)──▶ c₂ ──construct──▶ c₃ …

Constructions only ever offer names, one after the other, and a throw only ends the offering. So
whatever the history, the watch list is the de-duplication of everything that was offered
(`watch_list_invariant`). A tick works on a copy, so the list after it is the list before it
(`ticks_persist_iff` says when this can be told from an update).
-/

namespace SysInfo.Storage

open Lib.FirstOccurrence

/-- What the constructor `Storage::Stat(const char *)` gives to the passes of one `on_timer`. -/
abbrev Tick := ℕ → String → Except Exception Stat

/-- What can happen to the controller of a process. -/
inductive Event where
  | construct (h : Host) (node : XmlNode)
  | tick (statOf : Tick)

variable {τ : Type}

namespace Event

/-- The controller after an event. -/
def run (same : DecEquiv String) (M : TimerApi τ) (c : Controller τ) : Event → Controller τ
  | .construct h node => left ((Action.construct same M h node).run c)
  | .tick statOf => (c.onTimer statOf).1

/-- The names whose insertion an event reaches without a throw. -/
def offered (same : DecEquiv String) (c : Controller τ) : Event → List String
  | .construct h node =>
    match unitFactory node, Stat.get h with
    | .ok _, .ok listing => Action.reached same h c listing
    | _, _ => []
  | .tick _ => []

/-- The moments of a construction between two disks of its listing: the names offered so far and
the controller. -/
def moments (same : DecEquiv String) (c : Controller τ) :
    Event → List (List String × Controller τ)
  | .construct h node =>
    match unitFactory node, Stat.get h with
    | .ok _, .ok listing => (List.range (listing.length + 1)).map fun n =>
        (Action.reached same h c (listing.take n),
          left ((Action.watch same h (listing.take n)).run c))
    | _, _ => []
  | .tick _ => []

end Event

/-- The controller after a history of events. -/
def history (same : DecEquiv String) (M : TimerApi τ) (c : Controller τ) (events : List Event) :
    Controller τ :=
  events.foldl (Event.run same M) c

/-- All the names offered in a history. -/
def log (same : DecEquiv String) (M : TimerApi τ) : Controller τ → List Event → List String
  | _, [] => []
  | c, e :: events => e.offered same c ++ log same M (e.run same M c) events

/-! ## One event -/

section Steps

variable {same : DecEquiv String} {M : TimerApi τ} {h : Host}

/-- A construction that is cut short has offered the first of the names. -/
theorem reached_take_prefix (listing : List Stat) (n : ℕ) (c : Controller τ) :
    Action.reached same h c (listing.take n) <+: Action.reached same h c listing := by
  induction listing generalizing n c with
  | nil => simp
  | cons unit rest ih =>
    cases n with
    | zero => exact List.nil_prefix
    | succ n =>
      rw [List.take_succ_cons, Action.reached, Action.reached]
      split
      · cases (Controller.pushBack same h unit).run c with
        | ok b c' =>
          show unit.device :: _ <+: unit.device :: _
          rw [List.prefix_cons_inj]
          exact ih n c'
        | error e c' => exact List.prefix_rfl
      · exact ih n c

/-- **What an event does to the names**: it offers some, one after the other. -/
theorem names_run (e : Event) (c : Controller τ) :
    (e.run same M c).names = (e.offered same c).foldl (insertNew same) c.names := by
  cases e with
  | tick statOf => rfl
  | construct h node =>
    show (left ((Action.construct same M h node).run c)).names = _
    cases hunit : unitFactory node with
    | error e =>
      rw [Action.construct_run_of_unit_error hunit]
      simp only [Event.offered, hunit]
      rfl
    | ok unit =>
      cases hget : Stat.get h with
      | error e =>
        rw [Action.construct_run_of_get_error hunit hget]
        simp only [Event.offered, hunit, hget]
        rfl
      | ok listing =>
        rw [Action.construct_run hunit hget]
        simp only [Event.offered, hunit, hget, ← Action.names_watch]
        cases (Action.watch same h listing).run c <;> rfl

theorem names_of_mem_moments {e : Event} {c : Controller τ} {m : List String × Controller τ}
    (hm : m ∈ e.moments same c) :
    m.2.names = m.1.foldl (insertNew same) c.names ∧ m.1 <+: e.offered same c := by
  cases e with
  | tick statOf => cases hm
  | construct h node =>
    simp only [Event.moments] at hm
    split at hm
    · next unit listing hunit hget =>
      obtain ⟨n, -, rfl⟩ := List.mem_map.mp hm
      simp only [Event.offered, hunit, hget]
      exact ⟨Action.names_watch _ c, reached_take_prefix listing n c⟩
    · cases hm

end Steps

/-! ## Whole histories -/

section Runs

variable {same : DecEquiv String} {M : TimerApi τ}

/-- **The names after a history** are the names before it with everything offered in it. -/
theorem names_history (events : List Event) (c : Controller τ) :
    (history same M c events).names = (log same M c events).foldl (insertNew same) c.names := by
  induction events generalizing c with
  | nil => rfl
  | cons e events ih =>
    rw [log, List.foldl_append, ← names_run]
    exact ih (e.run same M c)

theorem prefix_history (events : List Event) (c : Controller τ) :
    c.names <+: (history same M c events).names := by
  rw [names_history]
  exact prefix_foldl_insertNew _

theorem distinct_history (events : List Event) {c : Controller τ} (hc : Distinct same c.names) :
    Distinct same (history same M c events).names := by
  rw [names_history]
  exact distinct_foldl_insertNew hc _

/-- Started without disks, the list is the de-duplication of what was offered. -/
theorem names_history_empty (events : List Event) (t : τ) :
    (history same M { timer := t } events).names =
      (log same M { timer := t } events).eraseDupsBy same.same := by
  rw [names_history]
  exact foldl_insertNew_eraseDupsBy _ []

/-- What holds at a moment in the middle of an event holds with the names offered up to then. -/
theorem names_moment {events : List Event} {t : τ} {e : Event} {m : List String × Controller τ}
    (hm : m ∈ e.moments same (history same M { timer := t } events)) :
    m.2.names = (log same M { timer := t } events ++ m.1).eraseDupsBy same.same := by
  rw [(names_of_mem_moments hm).1, names_history_empty, foldl_insertNew_eraseDupsBy]

/-- Between the beginning and the end of an event the list only grows. -/
theorem prefix_moment {c : Controller τ} {e : Event} {m : List String × Controller τ}
    (hm : m ∈ e.moments same c) :
    c.names <+: m.2.names ∧ m.2.names <+: (e.run same M c).names := by
  obtain ⟨hnames, rest, hrest⟩ := names_of_mem_moments hm
  constructor
  · rw [hnames]
    exact prefix_foldl_insertNew _
  · rw [hnames, names_run, ← hrest, List.foldl_append]
    exact prefix_foldl_insertNew _

/-- A construction with a valid size unit that can read every block size returns, and has every
physical disk watched then. -/
theorem construct_covers {h : Host} {node : XmlNode} {listing : List Stat} {unit : SizeUnit}
    (hunit : unitFactory node = .ok unit) (hget : Stat.get h = .ok listing)
    (hread : ∀ u ∈ listing, u.physical h = true → ∃ n, u.blocksize h = .ok n)
    (c : Controller τ) :
    ∃ a c', (Action.construct same M h node).run c = .ok a c' ∧
      ∀ u ∈ listing, u.physical h = true → Covers same c'.names u.device := by
  have hfree : Action.Unobstructed same h c.names listing := by
    intro pre u post hsplit hp hb
    obtain ⟨n, hn⟩ := hread u (by rw [hsplit]; simp) hp
    exact absurd hn (hb n)
  obtain ⟨a, c', hrun⟩ := (Action.construct_ok_iff hget c).mpr ⟨⟨unit, hunit⟩, hfree⟩
  obtain ⟨c₁, hwatch, rfl⟩ := Action.of_construct_ok hget hrun
  exact ⟨a, _, hrun, fun u hu hp => Action.covers_of_watch_ok hwatch hu hp⟩

/-- **The watch list over any history**, started without disks and ended after any number of
events. No two names are equivalent, the list is the de-duplication of the names offered, and what
is in it stays where it is; this is so in the middle of a construction too. `push_back` answers
whether the list has grown, at its end. And a construction that has failed, repeated at any later
time when the block sizes can be read, returns with every physical disk watched once. -/
theorem watch_list_invariant (same : DecEquiv String) (M : TimerApi τ) (t : τ)
    (events : List Event) :
    let c := history same M { timer := t } events
    let offered := log same M { timer := t } events
    (Distinct same c.names ∧ c.names = offered.eraseDupsBy same.same) ∧
    (∀ later, c.names <+: (history same M c later).names) ∧
    (∀ e : Event, ∀ m ∈ e.moments same c, Distinct same m.2.names ∧
      m.2.names = (offered ++ m.1).eraseDupsBy same.same ∧ m.1 <+: e.offered same c ∧
      c.names <+: m.2.names ∧ m.2.names <+: (e.run same M c).names) ∧
    (∀ (c c' : Controller τ) h stat b, (Controller.pushBack same h stat).run c = .ok b c' →
      (b = true ↔ c'.disks.length = c.disks.length + 1) ∧
      (b = true → ∃ d, d.device = stat.device ∧ c'.disks = c.disks ++ [d]) ∧
      (b = false → c' = c)) ∧
    (∀ h node e failed, (Action.construct same M h node).run c = .error e failed →
      ∀ later h' listing unit, unitFactory node = .ok unit → Stat.get h' = .ok listing →
      (∀ u ∈ listing, u.physical h' = true → ∃ n, u.blocksize h' = .ok n) →
      ∃ a c', (Action.construct same M h' node).run (history same M failed later) = .ok a c' ∧
        Distinct same c'.names ∧
        ∀ u ∈ listing, u.physical h' = true → Covers same c'.names u.device) := by
  intro c offered
  have hdistinct : Distinct same c.names := distinct_history events List.Pairwise.nil
  refine ⟨⟨hdistinct, names_history_empty events t⟩, ?_, ?_, ?_, ?_⟩
  · intro later
    exact prefix_history later c
  · intro e m hm
    obtain ⟨hnames, hoffered⟩ := names_of_mem_moments hm
    refine ⟨?_, names_moment hm, hoffered, prefix_moment hm⟩
    rw [hnames]
    exact distinct_foldl_insertNew hdistinct _
  · intro c c' h stat b hok
    exact Controller.pushBack_answer hok
  · intro h node e failed hfail later h' listing unit hunit hget hread
    -- the failed construction and what came after it are events like others
    have hfailed : failed = (Event.construct h node).run same M c := by
      show failed = left ((Action.construct same M h node).run c)
      rw [hfail]
      rfl
    have hbefore : Distinct same (history same M failed later).names := by
      rw [hfailed]
      exact distinct_history (.construct h node :: later) hdistinct
    obtain ⟨a, c', hrun, hcovers⟩ := construct_covers hunit hget hread (history same M failed later)
    refine ⟨a, c', hrun, ?_, hcovers⟩
    have hafter : c' = (Event.construct h' node).run same M (history same M failed later) := by
      show c' = left ((Action.construct same M h' node).run _)
      rw [hrun]
      rfl
    rw [hafter]
    exact distinct_history [.construct h' node] hbefore

end Runs

/-- An action that is built with no disc in the drive, and again with one. -/
theorem watch_list_invariant_withDrive :
    ∃ e failed, (Action.construct (DecEquiv.eq String) plainTimer (withDrive (.error ENOMEDIUM))
        (askingFor 5000)).run { timer := (0, false) } = .error e failed ∧
      ∃ a c', (Action.construct (DecEquiv.eq String) plainTimer (withDrive (.ok ()))
          (askingFor 5000)).run failed = .ok a c' ∧
        Distinct (DecEquiv.eq String) c'.names ∧
        ∀ u ∈ [sr0.stat, (sda 7).stat], u.physical (withDrive (.ok ())) = true →
          Covers (DecEquiv.eq String) c'.names u.device := by
  cases hfirst : (Action.construct (DecEquiv.eq String) plainTimer (withDrive (.error ENOMEDIUM))
      (askingFor 5000)).run { timer := (0, false) } with
  | ok a c =>
    have hfree := (Action.construct_ok_iff (get_withDrive _) _).mp ⟨a, c, hfirst⟩
    exact absurd hfree.2 not_unobstructed_withDrive
  | error e failed =>
    have hunit : unitFactory (askingFor 5000) = .ok .kilobyte := by decide
    refine ⟨e, failed, rfl, ?_⟩
    apply (watch_list_invariant (DecEquiv.eq String) plainTimer (0, false) []).2.2.2.2
      _ _ e failed hfirst [] _ _ _ hunit (get_withDrive _)
    intro u _ _
    exact ⟨512, by simp [Stat.blocksize, withDrive]⟩

/-! ## Ticks -/

/-- What a tick is for: a disk takes over the sample that could be read, with its error cleared; a
disk that could not be read keeps what it has, with the text of the error. -/
def Data.ticked (d : Data) : Except Exception Stat → Data
  | .ok stat => { d.attempt (.ok stat) with error := "" }
  | .error e => { d with error := e.what }

/-- The body of the loop of `on_timer` does this to the element it has. -/
theorem Data.update_eq_ticked (statOf : String → Except Exception Stat) (d : Data) :
    d.update statOf = d.ticked (statOf d.device) := by
  have hrefresh : (Data.refresh statOf).run d =
      (Data.refresh fun _ => statOf d.device).run d := rfl
  unfold Data.update
  rw [hrefresh]
  cases statOf d.device <;> rfl

/-- So the copy the loop goes through is ticked, every element of it. -/
theorem onTimer_copy (c : Controller τ) (statOf : Tick) :
    (c.onTimer statOf).2 = c.disks.mapIdx fun i d => d.ticked (statOf i d.device) := by
  simp only [Controller.onTimer, Data.update_eq_ticked]

/-- The controller after a run of ticks. -/
def runTicks (c : Controller τ) (ticks : List Tick) : Controller τ :=
  ticks.foldl (fun c statOf => (c.onTimer statOf).1) c

/-- After each tick of the run every stored disk is the one stored before it, ticked. -/
def TicksPersist (c : Controller τ) (ticks : List Tick) : Prop :=
  ∀ pre statOf post, ticks = pre ++ statOf :: post →
    (runTicks c (pre ++ [statOf])).disks =
      (runTicks c pre).disks.mapIdx fun i d => d.ticked (statOf i d.device)

/-- A reading that has nothing new for a disk: the counters that were saved, with no error and no
speed on display, or the error that is on display. -/
def Data.Unmoved (d : Data) : Except Exception Stat → Prop
  | .ok stat => d.error = "" ∧
      ∀ dir, d.last dir = sampled d.blocksize (stat.transfer dir) ∧ d.speed dir = .fin 0
  | .error e => d.error = e.what

theorem Data.speedSince_self (blocksize : ℕ) (t : Transfer) :
    speedSince blocksize (sampled blocksize t) t = .fin 0 := by
  simp [speedSince, sampled, speedOf]

theorem Data.ticked_ok_last (d : Data) (stat : Stat) (dir : Direction) :
    (d.ticked (.ok stat)).last dir = sampled d.blocksize (stat.transfer dir) := by
  cases dir <;> rfl

theorem Data.ticked_ok_speed (d : Data) (stat : Stat) (dir : Direction) :
    (d.ticked (.ok stat)).speed dir =
      speedSince d.blocksize (d.last dir) (stat.transfer dir) := by
  cases dir <;> rfl

/-- Two disks that agree in both directions and beside them are the same. -/
theorem Data.ext_directions {d d' : Data} (hdevice : d.device = d'.device)
    (herror : d.error = d'.error) (hblocksize : d.blocksize = d'.blocksize)
    (hlast : ∀ dir, d.last dir = d'.last dir) (hspeed : ∀ dir, d.speed dir = d'.speed dir) :
    d = d' :=
  Data.ext hdevice herror hblocksize (hspeed .read) (hspeed .write)
    (SavedCycle.ext (hlast .read) (hlast .write))

theorem Data.ticked_eq_self_iff (d : Data) (reading : Except Exception Stat) :
    d.ticked reading = d ↔ d.Unmoved reading := by
  cases reading with
  | error e =>
    constructor
    · intro hsame
      exact (congrArg Data.error hsame).symm
    · intro herr
      show { d with error := e.what } = d
      rw [← herr]
  | ok stat =>
    constructor
    · intro hsame
      refine ⟨(congrArg Data.error hsame).symm, fun dir => ?_⟩
      have hlast := d.ticked_ok_last stat dir
      have hspeed := d.ticked_ok_speed stat dir
      rw [hsame] at hlast hspeed
      refine ⟨hlast, ?_⟩
      rw [hspeed, hlast, Data.speedSince_self]
    · rintro ⟨herr, hdir⟩
      apply Data.ext_directions
      · rfl
      · exact herr.symm
      · rfl
      · intro dir
        rw [Data.ticked_ok_last, (hdir dir).1]
      · intro dir
        rw [Data.ticked_ok_speed, (hdir dir).1, Data.speedSince_self, (hdir dir).2]

theorem runTicks_eq (c : Controller τ) (ticks : List Tick) : runTicks c ticks = c := by
  induction ticks with
  | nil => rfl
  | cons statOf ticks ih => exact ih

/-- What a report says does not change with the ticks. -/
theorem call_runTicks (a : Action) (c : Controller τ) (ticks : List Tick) :
    a.call (runTicks c ticks) = a.call c := by
  rw [runTicks_eq]

/-- **When the ticks of a run persist**: only when no reading of any of them has anything new for
the disk it is taken of. -/
theorem ticks_persist_iff (c : Controller τ) (ticks : List Tick) :
    TicksPersist c ticks ↔
      ∀ statOf ∈ ticks, ∀ i (d : Data), c.disks[i]? = some d → d.Unmoved (statOf i d.device) := by
  have htick : ∀ statOf : Tick,
      (c.disks = c.disks.mapIdx fun i d => d.ticked (statOf i d.device)) ↔
        ∀ i (d : Data), c.disks[i]? = some d → d.Unmoved (statOf i d.device) := by
    intro statOf
    simp only [← Data.ticked_eq_self_iff]
    constructor
    · intro hsame i d hd
      have hi := congrArg (·[i]?) hsame
      rw [List.getElem?_mapIdx, hd] at hi
      exact (Option.some.inj hi).symm
    · intro hall
      apply List.ext_getElem?
      intro i
      rw [List.getElem?_mapIdx]
      cases hd : c.disks[i]? with
      | none => rfl
      | some d => rw [Option.map_some, hall i d hd]
  simp only [TicksPersist, runTicks_eq, htick]
  constructor
  · intro hall statOf hmem
    obtain ⟨pre, post, hsplit⟩ := List.append_of_mem hmem
    exact hall pre statOf post hsplit
  · intro hall pre statOf post hsplit
    exact hall statOf (by rw [hsplit]; simp)

/-- A disk as the constructor leaves it does not take over its first sample. -/
theorem not_ticks_persist_sda :
    ¬ TicksPersist { disks := [{ device := "sda", blocksize := 512 }], timer := (60000, true) }
      [fun _ _ => .ok { device := "sda", read := { blocks := 1000, time := 500 } }] := by
  intro hpersist
  have hstored := hpersist [] _ [] rfl
  simp [runTicks, Controller.onTimer, Data.ticked, Data.attempt_ok, Data.sampled] at hstored

end SysInfo.Storage
