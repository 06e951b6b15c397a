import Mathlib.Order.Bounds.Basic
import SysInfo.Storage.Data

/-!
# `Storage::Controller`: the watch list and its timer

The process has one controller, shared by all storage actions: a vector of disks and a timer of the
framework. The timer is a parameter (`TimerApi`), with what the controller relies on as hypotheses
(`TimerApi.IntervalLaws` for the interval, `TimerApi.Lawful` with what `enable` does).

`push_back` compares by `*this == stat.device`. Which comparison this is depends on how the operator
is looked up: `Data` declares an `operator==` of its own, which hides the one `Stat::Device` has for
devices (`strcasecmp`), so that what is found is the one for strings, unless the language version
also tries the operands the other way round. Nothing below needs more of it than that it is an
equivalence of names, `same`; `DecEquiv.eq` and `ignoringCase` are the two candidates.
-/

namespace SysInfo.Storage

open Lib.FirstOccurrence

/-- `MainLoop::Timer`. -/
structure TimerApi (τ : Type) where
  interval : τ → ℕ
  enabled : τ → Bool
  set : ℕ → τ → τ
  setNode : XmlNode → τ → τ
  enable : τ → Bool × τ

/-- What the controller relies on for the interval: `set(ms)` sets it, `set(node)` sets it to what
the node requests, 0 being no request, and `enable` leaves it as it is. -/
structure TimerApi.IntervalLaws {τ : Type} (M : TimerApi τ) (requested : XmlNode → ℕ) : Prop where
  interval_set : ∀ ms t, M.interval (M.set ms t) = ms
  interval_setNode : ∀ node t, 0 < requested node → M.interval (M.setNode node t) = requested node
  interval_setNode_zero : ∀ node t, requested node = 0 →
    M.interval (M.setNode node t) = 0 ∨ M.interval (M.setNode node t) = M.interval t
  interval_enable : ∀ t, M.interval (M.enable t).2 = M.interval t

/-- All that the controller relies on: the timer is enabled by `enable`, too. -/
structure TimerApi.Lawful {τ : Type} (M : TimerApi τ) (requested : XmlNode → ℕ) : Prop
    extends M.IntervalLaws requested where
  enabled_enable : ∀ t, M.enabled (M.enable t).2 = true

/-- `Storage::Controller`. -/
structure Controller (τ : Type) where
  disks : List Data := []
  timer : τ

namespace Controller

variable {τ : Type}

/-- The names of the watched disks. -/
def names (c : Controller τ) : List String := c.disks.map (·.device)

/-- `push_back(stat)`. -/
def pushBack (same : DecEquiv String) (h : Host) (stat : Stat) :
    EStateM Fault (Controller τ) Bool := do
  let c ← get
  if c.disks.any (fun st => same.same st.device stat.device) then
    return false
  -- `emplace_back`: the list is extended only once the element is there
  let d ← ofExcept (rethrow (Data.ofStat h stat))
  set { c with disks := c.disks ++ [d] }
  return true

/-- `setup(node)`. -/
def setup (M : TimerApi τ) (node : XmlNode) (c : Controller τ) : Controller τ :=
  let saved := if M.interval c.timer = 0 then 60000 else M.interval c.timer
  let timer := M.setNode node c.timer
  let timer := if saved < M.interval timer ∨ M.interval timer = 0 then M.set saved timer else timer
  { c with timer := (M.enable timer).2 }

end Controller

/-- The body of the loop of `on_timer`, with its `try` and `catch`. -/
def Data.update (statOf : String → Except Exception Stat) (d : Data) : Data :=
  match (Data.refresh statOf).run d with
  | .ok _ d => { d with error := "" }
  | .error e d => { d with error := e.what }

/-- `on_timer()`: the controller afterwards, and the vector the loop has gone through. `statOf i` is
the constructor `Storage::Stat(const char *)` as the pass over element `i` finds it. -/
def Controller.onTimer {τ : Type} (statOf : ℕ → String → Except Exception Stat)
    (c : Controller τ) : Controller τ × List Data :=
  -- the range of the loop is `(std::vector<Data>) *this`, a copy that is gone after the loop
  let range : List Data := c.disks
  (c, range.mapIdx fun i d => d.update (statOf i))

namespace Controller

variable {τ : Type}

/-! ## `push_back` -/

section PushBack

variable {same : DecEquiv String} {h : Host} {stat : Stat} {c c' : Controller τ}

theorem any_same_iff (c : Controller τ) (stat : Stat) :
    c.disks.any (fun st => same.same st.device stat.device) = true ↔
      Covers same c.names stat.device := by
  simp [Covers, names]

/-- What `push_back` does, in its three cases. -/
theorem pushBack_run (same : DecEquiv String) (h : Host) (stat : Stat) (c : Controller τ) :
    (pushBack same h stat).run c =
      if Covers same c.names stat.device then .ok false c
      else match Data.ofStat h stat with
        | .ok d => .ok true { c with disks := c.disks ++ [d] }
        | .error e => .error (.throw e) c := by
  by_cases hc : Covers same c.names stat.device
  · have hany := (any_same_iff c stat).mpr hc
    simp only [pushBack, EStateM.run_bind, EStateM.run_get, hany, if_pos hc, ↓reduceIte]
    rfl
  · have hany : ¬ c.disks.any (fun st => same.same st.device stat.device) = true := by
      rwa [any_same_iff]
    simp only [pushBack, EStateM.run_bind, EStateM.run_get, if_neg hany, if_neg hc]
    cases Data.ofStat h stat <;> rfl

theorem ofStat_device {d : Data} (hd : Data.ofStat h stat = .ok d) : d.device = stat.device := by
  obtain ⟨n, -, rfl⟩ := Data.ofStat_eq_ok_iff.mp hd
  rfl

/-- A new disk fails to be inserted exactly when its block size cannot be read. -/
theorem ofStat_ok_iff : (∃ d, Data.ofStat h stat = .ok d) ↔ ∃ n, stat.blocksize h = .ok n := by
  constructor
  · rintro ⟨d, hd⟩
    obtain ⟨n, hn, -⟩ := Data.ofStat_eq_ok_iff.mp hd
    exact ⟨n, hn⟩
  · rintro ⟨n, hn⟩
    exact ⟨_, Data.ofStat_eq_ok_iff.mpr ⟨n, hn, rfl⟩⟩

/-- **What `push_back` does when it returns**: nothing to a list that covers the name, and otherwise
it appends the element built from the sample. -/
theorem pushBack_cases {b : Bool} (hok : (pushBack same h stat).run c = .ok b c') :
    (b = false ∧ Covers same c.names stat.device ∧ c' = c) ∨
      b = true ∧ ¬ Covers same c.names stat.device ∧
        ∃ d, Data.ofStat h stat = .ok d ∧ c' = { c with disks := c.disks ++ [d] } := by
  rw [pushBack_run] at hok
  split at hok
  · next hc =>
    injection hok with hb hc'
    exact Or.inl ⟨hb.symm, hc, hc'.symm⟩
  · next hc =>
    cases hd : Data.ofStat h stat with
    | error e =>
      rw [hd] at hok
      cases hok
    | ok d =>
      rw [hd] at hok
      injection hok with hb hc'
      exact Or.inr ⟨hb.symm, hc, d, rfl, hc'.symm⟩

/-- A call that returns has offered the name to the list of names. -/
theorem names_of_pushBack_ok {b : Bool} (hok : (pushBack same h stat).run c = .ok b c') :
    c'.names = insertNew same c.names stat.device := by
  obtain ⟨-, hc, rfl⟩ | ⟨-, hc, d, hd, rfl⟩ := pushBack_cases hok
  · rw [insertNew_of_covers hc]
  · rw [insertNew_of_not_covers hc, names, List.map_append, List.map_singleton, ofStat_device hd]
    rfl

/-- A call that throws leaves the controller as it was. -/
theorem eq_of_pushBack_error {e : Fault} (herr : (pushBack same h stat).run c = .error e c') :
    c' = c := by
  rw [pushBack_run] at herr
  split at herr
  · cases herr
  · cases hd : Data.ofStat h stat with
    | error e =>
      rw [hd] at herr
      injection herr with _ hc'
      exact hc'.symm
    | ok d =>
      rw [hd] at herr
      cases herr

/-- **The answer of `push_back`**: true when the list has grown by one element at its end, and false
when nothing has changed. -/
theorem pushBack_answer {b : Bool} (hok : (pushBack same h stat).run c = .ok b c') :
    (b = true ↔ c'.disks.length = c.disks.length + 1) ∧
      (b = true → ∃ d, d.device = stat.device ∧ c'.disks = c.disks ++ [d]) ∧
      (b = false → c' = c) := by
  obtain ⟨rfl, -, rfl⟩ | ⟨rfl, -, d, hd, rfl⟩ := pushBack_cases hok
  · simp
  · simp [ofStat_device hd]

/-- The element that is appended is the one built from the sample. -/
theorem ofStat_of_pushBack_true (hok : (pushBack same h stat).run c = .ok true c') :
    ∃ d, Data.ofStat h stat = .ok d ∧ c'.disks = c.disks ++ [d] := by
  obtain ⟨hb, -⟩ | ⟨-, -, d, hd, rfl⟩ := pushBack_cases hok
  · cases hb
  · exact ⟨d, hd, rfl⟩

end PushBack

/-! ## `setup` -/

section Setup

variable {M : TimerApi τ} {requested : XmlNode → ℕ}

/-- The rates a sequence of nodes leaves to choose from: the default and what is requested. -/
def rates (requested : XmlNode → ℕ) (nodes : List XmlNode) : Set ℕ :=
  {ms | ms = 60000 ∨ 0 < ms ∧ ∃ node ∈ nodes, requested node = ms}

/-- The calls `setup(node)` of a sequence of nodes. -/
def setupAll (M : TimerApi τ) (nodes : List XmlNode) (c : Controller τ) : Controller τ :=
  nodes.foldl (fun c node => c.setup M node) c

/-- **One call**: an interval of 0 counts as the default, a request of 0 as none; of the two the
smaller one stays. -/
theorem interval_setup (hM : M.IntervalLaws requested) (node : XmlNode) (c : Controller τ) :
    M.interval (c.setup M node).timer =
      let saved := if M.interval c.timer = 0 then 60000 else M.interval c.timer
      if requested node = 0 then saved else min saved (requested node) := by
  simp only [setup, hM.interval_enable]
  by_cases hreq : requested node = 0
  · rw [if_pos hreq]
    rcases hM.interval_setNode_zero node c.timer hreq with h | h
    · rw [h, if_pos (Or.inr rfl), hM.interval_set]
    · rw [h]
      by_cases h0 : M.interval c.timer = 0
      · rw [if_pos h0, if_pos (Or.inr h0), hM.interval_set]
      · rw [if_neg h0, if_neg (by simp [h0]), h]
  · rw [if_neg hreq, hM.interval_setNode node c.timer (Nat.pos_of_ne_zero hreq)]
    generalize (if M.interval c.timer = 0 then 60000 else M.interval c.timer) = saved
    split
    · next h =>
      rw [hM.interval_set]
      exact (min_eq_left (h.resolve_right hreq).le).symm
    · next h =>
      rw [hM.interval_setNode node c.timer (Nat.pos_of_ne_zero hreq)]
      exact (min_eq_right (not_lt.mp fun hlt => h (Or.inl hlt))).symm

theorem interval_setup_pos (hM : M.IntervalLaws requested) (node : XmlNode) (c : Controller τ) :
    0 < M.interval (c.setup M node).timer := by
  rw [interval_setup hM]
  dsimp only
  split_ifs <;> omega

theorem enabled_setup (hM : M.Lawful requested) (node : XmlNode) (c : Controller τ) :
    M.enabled (c.setup M node).timer = true := hM.enabled_enable _

theorem setupAll_concat (M : TimerApi τ) (nodes : List XmlNode) (node : XmlNode)
    (c : Controller τ) : setupAll M (nodes ++ [node]) c = (setupAll M nodes c).setup M node := by
  simp [setupAll, List.foldl_append]

/-- After at least one call the interval is the least of the rates. -/
theorem isLeast_setupAll (hM : M.IntervalLaws requested) {c : Controller τ}
    (h0 : M.interval c.timer = 0) {nodes : List XmlNode} (hne : nodes ≠ []) :
    IsLeast (rates requested nodes) (M.interval (setupAll M nodes c).timer) := by
  induction nodes using List.reverseRecOn with
  | nil => exact absurd rfl hne
  | append_singleton nodes node ih =>
    -- what the earlier calls have left, 0 counting as the default
    obtain ⟨saved, hsaved, hleast⟩ : ∃ saved,
        (if M.interval (setupAll M nodes c).timer = 0 then 60000
          else M.interval (setupAll M nodes c).timer) = saved ∧
        IsLeast (rates requested nodes) saved := by
      by_cases hnil : nodes = []
      · subst hnil
        refine ⟨60000, if_pos h0, Or.inl rfl, ?_⟩
        rintro ms (rfl | ⟨-, node, hnode, -⟩)
        · exact le_refl _
        · cases hnode
      · have hpos : M.interval (setupAll M nodes c).timer ≠ 0 := by
          rcases (ih hnil).1 with h | ⟨h, -⟩ <;> omega
        exact ⟨_, if_neg hpos, ih hnil⟩
    rw [setupAll_concat, interval_setup hM, hsaved]
    dsimp only
    obtain ⟨hmem, hlow⟩ := hleast
    constructor
    · split_ifs with hreq
      · exact hmem.imp_right fun ⟨hp, n, hn, hr⟩ => ⟨hp, n, by simp [hn], hr⟩
      · rcases le_total saved (requested node) with h | h
        · rw [min_eq_left h]
          exact hmem.imp_right fun ⟨hp, n, hn, hr⟩ => ⟨hp, n, by simp [hn], hr⟩
        · rw [min_eq_right h]
          exact Or.inr ⟨Nat.pos_of_ne_zero hreq, node, by simp, rfl⟩
    · intro ms hms
      have hcases : ms ∈ rates requested nodes ∨ (requested node = ms ∧ 0 < ms) := by
        rcases hms with h | ⟨hp, n, hn, hr⟩
        · exact Or.inl (Or.inl h)
        · rcases List.mem_append.mp hn with hn | hn
          · exact Or.inl (Or.inr ⟨hp, n, hn, hr⟩)
          · rw [List.mem_singleton.mp hn] at hr
            exact Or.inr ⟨hr, hp⟩
      rcases hcases with h | ⟨rfl, hp⟩
      · have := hlow h
        split_ifs <;> omega
      · split_ifs <;> omega

/-- Asking again for what has been asked for, or in another order, offers the same rates. -/
theorem rates_congr {nodes nodes' : List XmlNode} (h : ∀ n, n ∈ nodes' ↔ n ∈ nodes) :
    rates requested nodes' = rates requested nodes := by
  ext ms
  simp only [rates, Set.mem_ofPred_eq, h]

/-- **The shared timer runs at the fastest rate asked for**: starting unset, after any sequence of
calls the interval is the least of the default and the positive requests. So it is not 0, never
grows from one call to the next, and depends on which nodes asked only, not on their order or on
how often each did. -/
theorem setup_fastest_rate (M : TimerApi τ) (requested : XmlNode → ℕ)
    (hM : M.IntervalLaws requested) (c : Controller τ) (h0 : M.interval c.timer = 0)
    (nodes : List XmlNode) (hne : nodes ≠ []) :
    IsLeast (rates requested nodes) (M.interval (setupAll M nodes c).timer) ∧
      M.interval (setupAll M nodes c).timer ≠ 0 ∧
      (∀ node, M.interval (setupAll M (nodes ++ [node]) c).timer ≤
        M.interval (setupAll M nodes c).timer) ∧
      ∀ nodes', (∀ n, n ∈ nodes' ↔ n ∈ nodes) →
        M.interval (setupAll M nodes' c).timer = M.interval (setupAll M nodes c).timer := by
  have hleast := isLeast_setupAll hM h0 hne
  refine ⟨hleast, ?_, ?_, ?_⟩
  · rcases hleast.1 with h | ⟨h, -⟩ <;> omega
  · intro node
    have hmore := isLeast_setupAll hM h0 (show nodes ++ [node] ≠ [] by simp)
    apply hmore.2
    exact hleast.1.imp_right fun ⟨hp, n, hn, hr⟩ => ⟨hp, n, by simp [hn], hr⟩
  · intro nodes' hsame
    have hne' : nodes' ≠ [] := by
      obtain ⟨n, hn⟩ := List.exists_mem_of_ne_nil nodes hne
      exact List.ne_nil_of_mem ((hsame n).mpr hn)
    have hleast' := isLeast_setupAll hM h0 hne'
    rw [rates_congr hsame] at hleast'
    exact hleast'.unique hleast

end Setup

end Controller

/-- A timer that keeps its interval and takes the one of a node in milliseconds. -/
def plainTimer : TimerApi (ℕ × Bool) where
  interval t := t.1
  enabled t := t.2
  set ms t := (ms, t.2)
  setNode node t := (((node.asUint "timer-interval").getD 0).toNat, t.2)
  enable t := (!t.2, (t.1, true))

theorem plainTimer_lawful :
    plainTimer.Lawful fun node => ((node.asUint "timer-interval").getD 0).toNat where
  interval_set _ _ := rfl
  interval_setNode _ _ _ := rfl
  interval_setNode_zero _ _ h := Or.inl h
  interval_enable _ := rfl
  enabled_enable _ := rfl

/-- A node that asks for an interval. -/
def askingFor (ms : UInt32) : XmlNode where
  asString _ := none
  asUint name := if name = "timer-interval" then some ms else none

theorem setup_fastest_rate_askingFor :
    plainTimer.interval (Controller.setupAll plainTimer
      [askingFor 5000, askingFor 0, askingFor 1000] { timer := (0, false) }).timer ≠ 0 :=
  (Controller.setup_fastest_rate plainTimer _ plainTimer_lawful.toIntervalLaws
    { timer := (0, false) } rfl [askingFor 5000, askingFor 0, askingFor 1000] (by simp)).2.1

end SysInfo.Storage
