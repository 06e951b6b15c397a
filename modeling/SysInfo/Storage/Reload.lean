import SysInfo.Lib.Simulation
import SysInfo.Storage.Malformed

/-!
# Reloading over and over

`load` stores what it converts before it looks at how much that was, so an object that is reloaded
from texts of any kind is a patchwork: every counter is from the last text whose conversion came as
far as the counter (`patchwork_of_reloads`).
-/

namespace SysInfo.Storage

open Lib (Simulation)
open Lib.CScan Lib.CString

/-- What is converted of the text the machine has for the disk. -/
def scanned (device : String) (h : Host) : List ℕ :=
  match h.text ("/sys/block/" ++ device ++ "/stat") with
  | .error _ => []
  | .ok proc =>
    match next (cstr proc) with
    | .error _ => []
    | .ok p => sscanf statFormat p

/-- The value of a counter in it, if the conversion comes that far. -/
def converted (device : String) (k : Counter) (h : Host) : Option ℕ :=
  (scanned device h)[Counter.all.idxOf k]?

/-- The object after reloading on one machine after the other. -/
def reloads (st : Stat) (hs : List Host) : Stat :=
  hs.foldl (fun st h => left ((Stat.load h).run st)) st

/-! ## One call -/

theorem scanned_of_error {device : String} {h : Host} {e : Exception}
    (hproc : h.text ("/sys/block/" ++ device ++ "/stat") = .error e) : scanned device h = [] := by
  rw [scanned, hproc]

theorem scanned_of_text {device : String} {h : Host} {proc : String}
    (hproc : h.text ("/sys/block/" ++ device ++ "/stat") = .ok proc) :
    scanned device h =
      match next (cstr proc) with
      | .error _ => []
      | .ok p => sscanf statFormat p := by
  rw [scanned, hproc]

theorem scanned_length_le (device : String) (h : Host) : (scanned device h).length ≤ 15 := by
  unfold scanned
  split
  · exact Nat.zero_le _
  · split
    · exact Nat.zero_le _
    · exact length_sscanf_le statFormat _

theorem scanned_zip_lt (device : String) (h : Host) :
    ∀ v ∈ Counter.all.zip (scanned device h), v.2 < 2 ^ v.1.width := by
  unfold scanned
  split
  · simp
  · split
    · simp
    · exact scanned_lt

/-- Whether the call returns or throws, it stores what is converted. -/
theorem left_load {h : Host} {st : Stat} (hdevice : st.device ≠ "") :
    left ((Stat.load h).run st) = st.storeAll (Counter.all.zip (scanned st.device h)) := by
  cases hproc : h.text ("/sys/block/" ++ st.device ++ "/stat") with
  | error e =>
    rw [scanned_of_error hproc]
    simp [Stat.load, rethrow, hdevice, hproc, left, Stat.storeAll]
  | ok proc =>
    rw [load_run_text hdevice hproc, scanned_of_text hproc]
    cases next (cstr proc) with
    | error e => rfl
    | ok p =>
      by_cases hlen : (sscanf statFormat p).length = 15
      · simp only [if_pos hlen, left]
      · simp only [if_neg hlen, left]

/-- It returns exactly when all fifteen counters are reached. -/
theorem load_ok_iff {h : Host} {st : Stat} (hdevice : st.device ≠ "") :
    (∃ st', (Stat.load h).run st = .ok () st') ↔ (scanned st.device h).length = 15 := by
  cases hproc : h.text ("/sys/block/" ++ st.device ++ "/stat") with
  | error e => simp [Stat.load, rethrow, hdevice, hproc, scanned_of_error hproc]
  | ok proc =>
    rw [load_run_text hdevice hproc, scanned_of_text hproc]
    cases next (cstr proc) with
    | error e => simp
    | ok p =>
      by_cases hlen : (sscanf statFormat p).length = 15
      · simp [hlen]
      · simp [hlen]

/-- A call that runs off a text has opened an empty one. -/
theorem exists_text_of_overrun {h : Host} {st st' : Stat} (hdevice : st.device ≠ "")
    (hover : (Stat.load h).run st = .error .overrun st') :
    ∃ proc, h.text ("/sys/block/" ++ st.device ++ "/stat") = .ok proc ∧ cstr proc = [] := by
  cases hproc : h.text ("/sys/block/" ++ st.device ++ "/stat") with
  | error e => simp [Stat.load, rethrow, hdevice, hproc] at hover
  | ok proc => exact ⟨proc, rfl, (load_overrun_iff hdevice hproc).mp ⟨st', hover⟩⟩

theorem counter_left_load {h : Host} {st : Stat} (hdevice : st.device ≠ "") (k : Counter) :
    (left ((Stat.load h).run st)).counter k = (converted st.device k h).getD (st.counter k) := by
  have hplace : Counter.all[Counter.all.idxOf k]? = some k :=
    List.getElem?_idxOf (Counter.mem_all k)
  rw [left_load hdevice, converted]
  cases hv : (scanned st.device h)[Counter.all.idxOf k]? with
  | none =>
    -- the counters that are stored have their places in front of this one
    apply Stat.counter_storeAll_of_notMem
    rintro ⟨j, v⟩ hmem rfl
    obtain ⟨i, hi⟩ := List.mem_iff_getElem?.mp hmem
    obtain ⟨hj, hval⟩ := List.getElem?_zip_eq_some.mp hi
    obtain ⟨hi, -⟩ := List.getElem?_eq_some_iff.mp hj
    obtain rfl : i = Counter.all.idxOf j :=
      (List.getElem?_inj hi Counter.nodup_all).mp (hj.trans hplace.symm)
    rw [hv] at hval
    cases hval
  | some v =>
    have hmem : (k, v) ∈ Counter.all.zip (scanned st.device h) :=
      List.mem_iff_getElem?.mpr ⟨_, List.getElem?_zip_eq_some.mpr ⟨hplace, hv⟩⟩
    rw [Stat.counter_storeAll (Stat.nodup_zip _) hmem,
      Nat.mod_eq_of_lt (scanned_zip_lt _ _ _ hmem), Option.getD_some]

/-! ## A run of calls -/

theorem reloads_concat (st : Stat) (hs : List Host) (h : Host) :
    reloads st (hs ++ [h]) = left ((Stat.load h).run (reloads st hs)) := by
  rw [reloads, List.foldl_append, List.foldl_cons, List.foldl_nil]
  rfl

theorem device_left_load {h : Host} {st : Stat} (hdevice : st.device ≠ "") :
    (left ((Stat.load h).run st)).device = st.device ∧
      (left ((Stat.load h).run st)).major = st.major ∧
      (left ((Stat.load h).run st)).minor = st.minor := by
  rw [left_load hdevice]
  exact Stat.identity_storeAll _ st

theorem identity_reloads {st : Stat} (hdevice : st.device ≠ "") (hs : List Host) :
    (reloads st hs).device = st.device ∧ (reloads st hs).major = st.major ∧
      (reloads st hs).minor = st.minor := by
  induction hs generalizing st with
  | nil => exact ⟨rfl, rfl, rfl⟩
  | cons h hs ih =>
    obtain ⟨hd, hj, hn⟩ := device_left_load (h := h) hdevice
    have hnamed : (left ((Stat.load h).run st)).device ≠ "" := by rwa [hd]
    have hrest := ih hnamed
    rw [hd, hj, hn] at hrest
    exact hrest

/-- A counter remembers the last text that reached it. -/
def remembering {device : String} (hdevice : device ≠ "") (k : Counter) :
    Simulation (fun st h => left ((Stat.load h).run st)) (fun (_ v : ℕ) => v) where
  Inv st := st.device = device
  abs st := st.counter k
  view h := converted device k h
  keeps st h hst := by
    subst hst
    exact (device_left_load hdevice).1
  hidden st h hst hview := by
    subst hst
    rw [counter_left_load hdevice, hview, Option.getD_none]
  visible st h v hst hview := by
    subst hst
    rw [counter_left_load hdevice, hview, Option.getD_some]

/-- A text that reaches a counter has reached those in front of it. -/
theorem converted_of_idxOf_le {device : String} {h : Host} {k j : Counter}
    (hle : Counter.all.idxOf k ≤ Counter.all.idxOf j) (hj : (converted device j h).isSome) :
    (converted device k h).isSome := by
  rw [converted, isSome_getElem?] at hj ⊢
  exact hle.trans_lt hj

/-- It reaches all of them exactly when there are fifteen numbers. -/
theorem forall_converted_iff {device : String} {h : Host} :
    (∀ k, (converted device k h).isSome) ↔ (scanned device h).length = 15 := by
  constructor
  · intro hall
    have hlast := hall .discardsTime
    rw [converted, isSome_getElem?] at hlast
    exact (scanned_length_le device h).antisymm hlast
  · intro hlen k
    rw [converted, isSome_getElem?, hlen]
    exact List.idxOf_lt_length_of_mem k.mem_all

/-- What an object is after reloading: the same disk, -/
structure Patchwork (st : Stat) (hs : List Host) : Prop where
  identity : (reloads st hs).device = st.device ∧ (reloads st hs).major = st.major ∧
    (reloads st hs).minor = st.minor
  /-- read without running off a text, -/
  bounds : ∀ before h after, hs = before ++ h :: after →
    ∀ st', (Stat.load h).run (reloads st before) ≠ .error .overrun st'
  /-- with every counter from the last text that reached it, -/
  counter : ∀ k, (reloads st hs).counter k =
    (hs.filterMap (converted st.device k)).getLast?.getD (st.counter k)
  /-- none of them older than those behind it, -/
  front : ∀ k j, Counter.all.idxOf k ≤ Counter.all.idxOf j →
    ∀ h ∈ hs, (converted st.device j h).isSome → (converted st.device k h).isSome
  /-- and all of them from the last text exactly when the last call has returned. -/
  whole : ∀ before h, hs = before ++ [h] →
    ((∃ st', (Stat.load h).run (reloads st before) = .ok () st') ↔
      ∀ k, converted st.device k h = some ((reloads st hs).counter k))

/-- **An object is a patchwork of the texts it was reloaded from**, over any run of calls that
return or throw, none of them on an empty text. -/
theorem patchwork_of_reloads (st : Stat) (hs : List Host) (hdevice : st.device ≠ "")
    (hbounds : ∀ h ∈ hs, ∀ proc,
      h.text ("/sys/block/" ++ st.device ++ "/stat") = .ok proc → cstr proc ≠ []) :
    Patchwork st hs where
  identity := identity_reloads hdevice hs
  bounds before h after hsplit st' hrun := by
    obtain ⟨hd, -, -⟩ := identity_reloads hdevice before
    obtain ⟨proc, hproc, hempty⟩ := exists_text_of_overrun (by rwa [hd]) hrun
    rw [hd] at hproc
    exact hbounds h (by simp [hsplit]) proc hproc hempty
  counter k := (remembering hdevice k).last_run rfl hs
  front _ _ hle _ _ := converted_of_idxOf_le hle
  whole before h hsplit := by
    obtain ⟨hd, -, -⟩ := identity_reloads hdevice before
    have hnamed : (reloads st before).device ≠ "" := by rwa [hd]
    have hlast : ∀ k, (reloads st hs).counter k =
        (converted st.device k h).getD ((reloads st before).counter k) := by
      intro k
      rw [hsplit, reloads_concat, counter_left_load hnamed, hd]
    rw [load_ok_iff hnamed, hd, ← forall_converted_iff]
    apply forall_congr'
    intro k
    rw [hlast]
    cases converted st.device k h with
    | none => simp
    | some v => simp

/-- A text that is cut off behind a whole one. -/
theorem patchwork_of_reloads_cut :
    Patchwork { device := "sda" } [serving (sda 7).statText, serving "  5 x\n"] := by
  apply patchwork_of_reloads _ _ (by decide)
  intro h hh proc hproc
  rcases List.mem_cons.mp hh with rfl | hh
  · obtain rfl : (sda 7).statText = proc := Except.ok.inj hproc
    rw [Record.cstr_statText]
    simp
  · obtain rfl : h = serving "  5 x\n" := List.mem_singleton.mp hh
    obtain rfl : "  5 x\n" = proc := Except.ok.inj hproc
    decide

end SysInfo.Storage
