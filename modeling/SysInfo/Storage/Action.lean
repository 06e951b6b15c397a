import Mathlib.Data.Rat.Floor
import SysInfo.Storage.Controller
import SysInfo.Storage.KernelFormat

/-!
# `Storage::Action`: filling the watch list and reporting the speeds

Every action that is built offers the physical disks of the moment to the shared controller and
then sets its timer up. The constructor is a straight line of calls that may throw: what was
inserted before the throw stays, what comes after it is not done.
-/

namespace SysInfo.Storage

open Lib (ExactFloat)
open Lib.CString (strcaseeq)
open Lib.CScan (isspace)
open Lib.FirstOccurrence

/-! ## Units -/

/-- `Storage::Unit`. -/
inductive SizeUnit where
  | byte
  | kilobyte
  | megabyte
  | gigabyte
  | terabyte
  deriving DecidableEq, Repr

/-- The table `units`: value and text. -/
def SizeUnit.entry : SizeUnit → ℚ × String
  | .byte => (1, "B")
  | .kilobyte => (1024, "KB")
  | .megabyte => (1048576, "MB")
  | .gigabyte => (1073741824, "GB")
  | .terabyte => (1099511627776, "TB")

/-- `Storage::UnitFactory(node)`. -/
def unitFactory (node : XmlNode) : Except Exception SizeUnit :=
  let attr := (node.asString "size-unit").getD "KB"
  match [SizeUnit.byte, .kilobyte, .megabyte, .gigabyte, .terabyte].find?
      (fun u => strcaseeq attr u.entry.2) with
  | some u => .ok u
  | none => .error (.runtimeError ("Invalid value for size-unit: '" ++ attr ++ "'"))

/-- Round to the nearest integer, half-way cases to the even one. -/
def roundHalfEven (q : ℚ) : ℤ :=
  let f := ⌊q⌋
  if q - f < 1 / 2 then f
  else if 1 / 2 < q - f then f + 1
  else if f % 2 = 0 then f else f + 1

/-- `std::fixed << std::setprecision(2)`. -/
def fixed2 : ExactFloat → String
  | .fin q =>
    let n := (roundHalfEven (q * 100)).natAbs
    (if q < 0 then "-" else "") ++ toString (n / 100) ++ "." ++ toString (n % 100 / 10) ++
      toString (n % 10)
  | .posInf => "inf"
  | .negInf => "-inf"
  | .nan => "nan"

/-- `std::to_string(value,unit)`. -/
def speedText (value : ExactFloat) (unit : SizeUnit) : String :=
  fixed2 (value / .fin unit.entry.1) ++ " " ++ unit.entry.2 ++ "/s"

/-! ## The action -/

/-- `Storage::Action`. -/
structure Action where
  unit : SizeUnit
  deriving DecidableEq, Repr

/-- A line of the report. -/
structure Row where
  device : String
  read : String
  write : String
  deriving DecidableEq, Repr

namespace Action

variable {τ : Type}

/-- The loop of the constructor: every physical disk of the listing is offered to the controller. -/
def watch (same : DecEquiv String) (h : Host) : List Stat → EStateM Fault (Controller τ) Unit
  | [] => return ()
  | unit :: rest => do
    if unit.physical h then
      let _ ← Controller.pushBack same h unit
    watch same h rest

/-- `Storage::Action::Action(node)`. -/
def construct (same : DecEquiv String) (M : TimerApi τ) (h : Host) (node : XmlNode) :
    EStateM Fault (Controller τ) Action := do
  let unit ← ofExcept (rethrow (unitFactory node))
  let listing ← ofExcept (Stat.get h)
  watch same h listing
  modify fun c => c.setup M node
  return { unit := unit }

/-- The line of a disk. -/
def row (a : Action) (d : Data) : Row where
  device := d.device
  read := speedText d.read a.unit
  write := speedText d.write a.unit

/-- What `call()` reports: a line for each disk of the controller, of which it takes a copy. -/
def call (a : Action) (c : Controller τ) : Except Exception (List Row) :=
  match c.disks with
  | [] => .error (.systemError ENODATA none)
  | first :: rest => .ok (a.row first :: rest.map a.row)

end Action

namespace Action

variable {τ : Type} {same : DecEquiv String} {h : Host}

/-! ## The loop of the constructor -/

theorem watch_cons_run (unit : Stat) (rest : List Stat) (c : Controller τ) :
    (watch same h (unit :: rest)).run c =
      if unit.physical h then
        match (Controller.pushBack same h unit).run c with
        | .ok _ c' => (watch same h rest).run c'
        | .error e c' => .error e c'
      else (watch same h rest).run c := by
  rw [watch]
  split
  · rw [EStateM.run_bind]
    cases (Controller.pushBack same h unit).run c <;> rfl
  · rfl

/-- The names of the physical disks of a listing. -/
def physicalNames (h : Host) (listing : List Stat) : List String :=
  (listing.filter (Stat.physical h)).map (·.device)

/-- The names whose insertion the loop reaches without a throw. -/
def reached (same : DecEquiv String) (h : Host) : Controller τ → List Stat → List String
  | _, [] => []
  | c, unit :: rest =>
    if unit.physical h then
      match (Controller.pushBack same h unit).run c with
      | .ok _ c' => unit.device :: reached same h c' rest
      | .error _ _ => []
    else reached same h c rest

/-- **What the loop does to the names**: it offers those it reaches, one after the other. -/
theorem names_watch (listing : List Stat) (c : Controller τ) :
    (left ((watch same h listing).run c)).names =
      (reached same h c listing).foldl (insertNew same) c.names := by
  induction listing generalizing c with
  | nil => rfl
  | cons unit rest ih =>
    rw [watch_cons_run, reached]
    split
    · cases hpush : (Controller.pushBack same h unit).run c with
      | ok b c' =>
        dsimp only
        rw [ih c', List.foldl_cons, Controller.names_of_pushBack_ok hpush]
      | error e c' =>
        rw [Controller.eq_of_pushBack_error hpush]
        rfl
    · exact ih c

/-- A loop that returns has reached every physical disk. -/
theorem reached_of_watch_ok {listing : List Stat} {c c' : Controller τ}
    (hok : (watch same h listing).run c = .ok () c') :
    reached same h c listing = physicalNames h listing := by
  induction listing generalizing c with
  | nil => rfl
  | cons unit rest ih =>
    rw [watch_cons_run] at hok
    rw [reached, physicalNames, List.filter_cons]
    split at hok
    · next hp =>
      cases hpush : (Controller.pushBack same h unit).run c with
      | ok b c₁ =>
        rw [hpush] at hok
        simp only [hp, ↓reduceIte, List.map_cons]
        rw [ih hok]
        rfl
      | error e c₁ => rw [hpush] at hok; cases hok
    · next hp =>
      simp only [hp, Bool.false_eq_true, ↓reduceIte]
      exact ih hok

/-- No disk stops the loop: a physical one whose block size cannot be read is watched already, or is
behind one of the same name in the listing. -/
def Unobstructed (same : DecEquiv String) (h : Host) (watched : List String)
    (listing : List Stat) : Prop :=
  ∀ pre unit post, listing = pre ++ unit :: post → unit.physical h = true →
    (∀ n, unit.blocksize h ≠ .ok n) → Covers same (watched ++ physicalNames h pre) unit.device

theorem physicalNames_cons (h : Host) (unit : Stat) (rest : List Stat) :
    physicalNames h (unit :: rest) = physicalNames h [unit] ++ physicalNames h rest := by
  rw [← List.singleton_append, physicalNames, List.filter_append, List.map_append]
  rfl

theorem physicalNames_singleton (h : Host) (unit : Stat) :
    physicalNames h [unit] = if unit.physical h then [unit.device] else [] := by
  unfold physicalNames
  split
  · next hp => simp [hp]
  · next hp => simp [hp]

/-- One disk of the condition at a time. -/
theorem unobstructed_cons {watched : List String} {unit : Stat} {rest : List Stat} :
    Unobstructed same h watched (unit :: rest) ↔
      (unit.physical h = true → (∀ n, unit.blocksize h ≠ .ok n) →
        Covers same watched unit.device) ∧
      Unobstructed same h (watched ++ physicalNames h [unit]) rest := by
  constructor
  · intro hall
    constructor
    · intro hp hb
      have := hall [] unit rest rfl hp hb
      simpa [physicalNames] using this
    · intro pre u post hsplit hp hb
      have := hall (unit :: pre) u post (by rw [hsplit, List.cons_append]) hp hb
      rwa [physicalNames_cons, ← List.append_assoc] at this
  · rintro ⟨hunit, hrest⟩ pre u post hsplit hp hb
    cases pre with
    | nil =>
      obtain ⟨rfl, rfl⟩ := List.cons.inj hsplit
      simpa [physicalNames] using hunit hp hb
    | cons v pre =>
      obtain ⟨rfl, htail⟩ := List.cons.inj hsplit
      have := hrest pre u post htail hp hb
      rwa [physicalNames_cons, ← List.append_assoc]

/-- The condition only asks what is covered. -/
theorem unobstructed_congr {w w' : List String} (hw : ∀ x, Covers same w x ↔ Covers same w' x)
    (listing : List Stat) : Unobstructed same h w listing ↔ Unobstructed same h w' listing := by
  have hcov : ∀ pre x, Covers same (w ++ pre) x ↔ Covers same (w' ++ pre) x := by
    intro pre x
    rw [covers_append, covers_append, hw]
  simp only [Unobstructed, hcov]

/-- **When the loop returns**: exactly when nothing stops it. -/
theorem watch_ok_iff (listing : List Stat) (c : Controller τ) :
    (∃ c', (watch same h listing).run c = .ok () c') ↔ Unobstructed same h c.names listing := by
  induction listing generalizing c with
  | nil =>
    apply iff_of_true ⟨c, rfl⟩
    intro pre unit post hsplit
    simp at hsplit
  | cons unit rest ih =>
    rw [watch_cons_run, unobstructed_cons, physicalNames_singleton]
    by_cases hp : unit.physical h = true
    · have hadd : ∀ x, Covers same (insertNew same c.names unit.device) x ↔
          Covers same (c.names ++ [unit.device]) x := fun x => covers_insertNew_iff
      rw [if_pos hp, if_pos hp, Controller.pushBack_run]
      by_cases hc : Covers same c.names unit.device
      · -- the disk is watched already, its block size is not asked for
        rw [insertNew_of_covers hc] at hadd
        rw [if_pos hc]
        dsimp only
        rw [ih c, unobstructed_congr hadd]
        exact ⟨fun hrest => ⟨fun _ _ => hc, hrest⟩, And.right⟩
      · rw [insertNew_of_not_covers hc] at hadd
        rw [if_neg hc]
        cases hd : Data.ofStat h unit with
        | ok d =>
          have hnames : ({ c with disks := c.disks ++ [d] } : Controller τ).names =
              c.names ++ [unit.device] := by
            simp [Controller.names, Controller.ofStat_device hd]
          dsimp only
          rw [ih, hnames]
          refine ⟨fun hrest => ⟨fun _ hb => ?_, hrest⟩, And.right⟩
          obtain ⟨n, hn⟩ := Controller.ofStat_ok_iff.mp ⟨d, hd⟩
          exact absurd hn (hb n)
        | error e =>
          constructor
          · rintro ⟨c', hc'⟩
            cases hc'
          · rintro ⟨hunit, -⟩
            apply absurd _ hc
            apply hunit hp
            intro n hn
            obtain ⟨d, hd'⟩ := Controller.ofStat_ok_iff.mpr ⟨n, hn⟩
            rw [hd] at hd'
            cases hd'
    · rw [if_neg hp, if_neg hp, ih, List.append_nil]
      exact ⟨fun hrest => ⟨fun hp' => absurd hp' hp, hrest⟩, And.right⟩

/-- A loop that returns leaves every physical disk of the listing watched. -/
theorem covers_of_watch_ok {listing : List Stat} {c c' : Controller τ}
    (hok : (watch same h listing).run c = .ok () c') {unit : Stat} (hu : unit ∈ listing)
    (hp : unit.physical h = true) : Covers same c'.names unit.device := by
  have hnames : c'.names = (physicalNames h listing).foldl (insertNew same) c.names := by
    have hleft : (left ((watch same h listing).run c)).names = _ := names_watch listing c
    rwa [hok, reached_of_watch_ok hok] at hleft
  have hmem : unit.device ∈ physicalNames h listing :=
    List.mem_map.mpr ⟨unit, List.mem_filter.mpr ⟨hu, hp⟩, rfl⟩
  rw [hnames, covers_foldl_insertNew_iff, covers_append]
  exact Or.inr (Covers.of_mem hmem)

/-! ## The constructor -/

/-- What the constructor does once it has a unit and a listing. -/
theorem construct_run {M : TimerApi τ} {node : XmlNode} {unit : SizeUnit} {listing : List Stat}
    (hunit : unitFactory node = .ok unit) (hget : Stat.get h = .ok listing) (c : Controller τ) :
    (construct same M h node).run c =
      match (watch same h listing).run c with
      | .ok _ c' => .ok { unit := unit } (c'.setup M node)
      | .error e c' => .error e c' := by
  simp only [construct, hunit, hget, rethrow, ofExcept, EStateM.run_bind, EStateM.run_pure,
    EStateM.run_modify]
  cases (watch same h listing).run c <;> rfl

theorem construct_run_of_unit_error {M : TimerApi τ} {node : XmlNode} {e : Exception}
    (hunit : unitFactory node = .error e) (c : Controller τ) :
    (construct same M h node).run c = .error (.throw e) c := by
  simp only [construct, hunit, rethrow, ofExcept, EStateM.run_bind]
  rfl

theorem construct_run_of_get_error {M : TimerApi τ} {node : XmlNode} {unit : SizeUnit} {e : Fault}
    (hunit : unitFactory node = .ok unit) (hget : Stat.get h = .error e) (c : Controller τ) :
    (construct same M h node).run c = .error e c := by
  simp only [construct, hunit, hget, rethrow, ofExcept, EStateM.run_bind, EStateM.run_pure]
  rfl

/-- The constructor returns exactly when the size unit is one of the table and nothing stops the
loop. -/
theorem construct_ok_iff {M : TimerApi τ} {node : XmlNode} {listing : List Stat}
    (hget : Stat.get h = .ok listing) (c : Controller τ) :
    (∃ a c', (construct same M h node).run c = .ok a c') ↔
      (∃ unit, unitFactory node = .ok unit) ∧ Unobstructed same h c.names listing := by
  cases hunit : unitFactory node with
  | error e =>
    rw [construct_run_of_unit_error hunit]
    constructor
    · rintro ⟨a, c', hc'⟩
      cases hc'
    · rintro ⟨⟨unit, hu⟩, -⟩
      cases hu
  | ok unit =>
    rw [construct_run hunit hget, ← watch_ok_iff]
    cases hwatch : (watch same h listing).run c with
    | ok u c' => exact iff_of_true ⟨_, _, rfl⟩ ⟨⟨unit, rfl⟩, c', rfl⟩
    | error e c' =>
      constructor
      · rintro ⟨a, c'', hc''⟩
        cases hc''
      · rintro ⟨-, c'', hc''⟩
        cases hc''

/-- A constructor that returns has watched the physical disks and set the timer up. -/
theorem of_construct_ok {M : TimerApi τ} {node : XmlNode} {listing : List Stat}
    (hget : Stat.get h = .ok listing) {c c' : Controller τ} {a : Action}
    (hok : (construct same M h node).run c = .ok a c') :
    ∃ c₁, (watch same h listing).run c = .ok () c₁ ∧ c' = c₁.setup M node := by
  cases hunit : unitFactory node with
  | error e =>
    rw [construct_run_of_unit_error hunit] at hok
    cases hok
  | ok unit =>
    rw [construct_run hunit hget] at hok
    cases hwatch : (watch same h listing).run c with
    | ok u c₁ =>
      rw [hwatch] at hok
      injection hok with _ hc'
      exact ⟨c₁, rfl, hc'.symm⟩
    | error e c₁ => rw [hwatch] at hok; cases hok

/-- What the construction is for: it ends with the timer set up and running, and every physical disk
of the listing whose block size can be read is watched. -/
def WatchesTheOthers (same : DecEquiv String) (M : TimerApi τ) (h : Host) (node : XmlNode)
    (c : Controller τ) (listing : List Stat) : Prop :=
  ∃ (a : Action) (c₁ : Controller τ),
    (construct same M h node).run c = .ok a (c₁.setup M node) ∧
    M.interval (c₁.setup M node).timer ≠ 0 ∧ M.enabled (c₁.setup M node).timer = true ∧
    ∀ unit ∈ listing, unit.physical h = true → (∃ n, unit.blocksize h = .ok n) →
      Covers same (c₁.setup M node).names unit.device

/-- **When a broken disk leaves the others alone**: only when the block size of the broken one is
never asked for. -/
theorem watches_the_others_iff (same : DecEquiv String) (M : TimerApi τ)
    (requested : XmlNode → ℕ) (hM : M.Lawful requested) (h : Host) (node : XmlNode)
    (listing : List Stat) (hget : Stat.get h = .ok listing) (c : Controller τ) :
    WatchesTheOthers same M h node c listing ↔
      (∃ unit, unitFactory node = .ok unit) ∧ Unobstructed same h c.names listing := by
  rw [← construct_ok_iff (M := M) hget]
  constructor
  · rintro ⟨a, c₁, hrun, -⟩
    exact ⟨a, _, hrun⟩
  · rintro ⟨a, c', hrun⟩
    obtain ⟨c₁, hwatch, rfl⟩ := of_construct_ok hget hrun
    refine ⟨a, c₁, hrun, ?_, Controller.enabled_setup hM node c₁, ?_⟩
    · exact (Controller.interval_setup_pos hM.toIntervalLaws node c₁).ne'
    · intro unit hu hp _
      exact covers_of_watch_ok hwatch hu hp

end Action

/-- An optical drive, as the kernel lists it. -/
def sr0 : Record where
  __ := sda 7
  major := 11
  major_lt := by omega
  name := "sr0"
  name_ne := by decide
  name_word := by simp [isspace]

/-- A machine with the drive in front of `sda`, both of them physical. `open` is what opening the
drive gives. -/
def withDrive (drive : Except Errno Unit) : Host where
  __ := Host.bare
  lines _ := .ok [sr0.line, (sda 7).line]
  realpath path := some ("/sys/devices/pci0000:00" ++ path)
  openDevice path := if path = "/dev/sr0" then drive else .ok ()
  blksszget _ := .ok 512

theorem get_withDrive (drive : Except Errno Unit) :
    Stat.get (withDrive drive) = .ok [sr0.stat, (sda 7).stat] := by
  have hlist : Listing [sr0, sda 7] [sr0.line, (sda 7).line] := by
    simp [Listing, Record.line_ne]
  exact get_listing rfl hlist

/-- The number for a drive without a disc in it. -/
def ENOMEDIUM : Errno := ⟨123, "No medium found"⟩

theorem watches_the_others_withDrive :
    Action.WatchesTheOthers (DecEquiv.eq String) plainTimer (withDrive (.ok ())) (askingFor 5000)
        { timer := (0, false) } [sr0.stat, (sda 7).stat] ↔
      (∃ unit, unitFactory (askingFor 5000) = .ok unit) ∧
        Action.Unobstructed (DecEquiv.eq String) (withDrive (.ok ())) []
          [sr0.stat, (sda 7).stat] :=
  Action.watches_the_others_iff (DecEquiv.eq String) plainTimer _ plainTimer_lawful _ _ _
    (get_withDrive _) _

/-- With no disc in the drive the loop does not get past it. -/
theorem not_unobstructed_withDrive :
    ¬ Action.Unobstructed (DecEquiv.eq String) (withDrive (.error ENOMEDIUM)) []
      [sr0.stat, (sda 7).stat] := by
  intro hfree
  have hdrive : sr0.stat.device = "sr0" := sr0.stat_device
  have hphysical : sr0.stat.physical (withDrive (.error ENOMEDIUM)) = true := by
    rw [Stat.physical, hdrive]
    decide
  obtain ⟨y, hy, -⟩ := hfree [] sr0.stat [(sda 7).stat] rfl hphysical (by
    rw [Stat.blocksize, hdrive]
    intro n hn
    cases hn)
  cases hy

/-- So `sda` is not watched and the timer not set up. -/
theorem not_watches_the_others_withDrive :
    ¬ Action.WatchesTheOthers (DecEquiv.eq String) plainTimer (withDrive (.error ENOMEDIUM))
        (askingFor 5000) { timer := (0, false) } [sr0.stat, (sda 7).stat] := by
  rintro ⟨a, c₁, hrun, -⟩
  exact not_unobstructed_withDrive ((Action.construct_ok_iff (get_withDrive _) _).mp ⟨a, _, hrun⟩).2

end SysInfo.Storage
