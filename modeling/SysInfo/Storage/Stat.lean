import Mathlib.Data.UInt
import Mathlib.Tactic.Common
import SysInfo.Host

/-!
# `Storage::Stat`: the counters of one disk

The object, its fifteen counters and the operations that look at nothing outside it. The counters
are fields of two widths, `unsigned int` and `unsigned long`; `Counter` names them in the order in
which both readers of the kernel's texts list them, so that statements about all fifteen are one
statement about a `Counter`.
-/

namespace SysInfo.Storage

open Lib.CString

/-! ## The device name -/

/-- `Stat::Device::NameFactory(devname, required)`: what follows the last slash, the whole name when
nothing does. -/
def Device.nameFactory (devname : String) (required : Bool) : Except Exception String :=
  let name := cstr devname
  if name = [] then
    if required then .error (.runtimeError "A device name is required") else .ok ""
  else
    let result :=
      match strrchr '/' name with
      | some (_ :: c :: cs) => c :: cs
      | _ => name
    if required && result = [] then .error (.runtimeError "Invalid device name")
    else .ok (String.ofList result)

/-- `Stat::Device::NameFactory(node, required)`: the attribute `name`, or else `device-name`. -/
def Device.nameFactoryOfNode (node : XmlNode) (required : Bool) : Except Exception String :=
  let devname := (node.asString "name").getD ""
  if devname ≠ "" then nameFactory devname required
  else nameFactory ((node.asString "device-name").getD "") required

/-! ## The object -/

/-- The `read` and `write` parts. -/
structure Transfer where
  count : UInt64 := 0
  merged : UInt64 := 0
  blocks : UInt64 := 0
  time : UInt32 := 0
  deriving DecidableEq, Repr

/-- The `io` part. -/
structure InFlight where
  inprogress : UInt32 := 0
  time : UInt32 := 0
  weighted : UInt32 := 0
  deriving DecidableEq, Repr

/-- The `discards` part. -/
structure Discards where
  count : UInt64 := 0
  merged : UInt64 := 0
  blocks : UInt64 := 0
  time : UInt64 := 0
  deriving DecidableEq, Repr

/-- `Storage::Stat`. -/
structure Stat where
  device : String := ""
  major : UInt16 := 0
  minor : UInt16 := 0
  read : Transfer := {}
  write : Transfer := {}
  io : InFlight := {}
  discards : Discards := {}
  deriving DecidableEq, Repr

namespace Stat

/-- `logical()`. -/
def logical (st : Stat) : Bool := st.major != 0 && st.minor != 0

/-- `operator==(const Stat &)`. -/
def eq (st s : Stat) : Bool := st.major == s.major && st.minor == s.minor

/-- `operator+=`. -/
def add (st s : Stat) : Stat where
  device := ""
  major := 0
  minor := 0
  read :=
    { count := st.read.count + s.read.count
      merged := st.read.merged + s.read.merged
      blocks := st.read.blocks + s.read.blocks
      time := st.read.time + s.read.time }
  write :=
    { count := st.write.count + s.write.count
      merged := st.write.merged + s.write.merged
      blocks := st.write.blocks + s.write.blocks
      time := st.write.time + s.write.time }
  io :=
    { inprogress := st.io.inprogress + s.io.inprogress
      time := st.io.time + s.io.time
      weighted := st.io.weighted + s.io.weighted }
  discards :=
    { count := st.discards.count + s.discards.count
      merged := st.discards.merged + s.discards.merged
      blocks := st.discards.blocks + s.discards.blocks
      time := st.discards.time + s.discards.time }

end Stat

/-! ## The fifteen counters -/

/-- The counters of a `Stat`, in the order of the `sscanf` calls. -/
inductive Counter where
  | readCount | readMerged | readBlocks | readTime
  | writeCount | writeMerged | writeBlocks | writeTime
  | ioInprogress | ioTime | ioWeighted
  | discardsCount | discardsMerged | discardsBlocks | discardsTime
  deriving DecidableEq, Repr

/-- The pointer arguments of the `sscanf` calls. -/
def Counter.all : List Counter :=
  [.readCount, .readMerged, .readBlocks, .readTime,
   .writeCount, .writeMerged, .writeBlocks, .writeTime,
   .ioInprogress, .ioTime, .ioWeighted,
   .discardsCount, .discardsMerged, .discardsBlocks, .discardsTime]

/-- The number of bits of the field. -/
def Counter.width : Counter → ℕ
  | .readTime | .writeTime | .ioInprogress | .ioTime | .ioWeighted => 32
  | _ => 64

namespace Stat

/-- The value of a counter. -/
def counter (st : Stat) : Counter → ℕ
  | .readCount => st.read.count.toNat
  | .readMerged => st.read.merged.toNat
  | .readBlocks => st.read.blocks.toNat
  | .readTime => st.read.time.toNat
  | .writeCount => st.write.count.toNat
  | .writeMerged => st.write.merged.toNat
  | .writeBlocks => st.write.blocks.toNat
  | .writeTime => st.write.time.toNat
  | .ioInprogress => st.io.inprogress.toNat
  | .ioTime => st.io.time.toNat
  | .ioWeighted => st.io.weighted.toNat
  | .discardsCount => st.discards.count.toNat
  | .discardsMerged => st.discards.merged.toNat
  | .discardsBlocks => st.discards.blocks.toNat
  | .discardsTime => st.discards.time.toNat

/-- Assign a counter, as `sscanf` does through its pointer. -/
def store (st : Stat) (k : Counter) (v : ℕ) : Stat :=
  match k with
  | .readCount => { st with read.count := .ofNat v }
  | .readMerged => { st with read.merged := .ofNat v }
  | .readBlocks => { st with read.blocks := .ofNat v }
  | .readTime => { st with read.time := .ofNat v }
  | .writeCount => { st with write.count := .ofNat v }
  | .writeMerged => { st with write.merged := .ofNat v }
  | .writeBlocks => { st with write.blocks := .ofNat v }
  | .writeTime => { st with write.time := .ofNat v }
  | .ioInprogress => { st with io.inprogress := .ofNat v }
  | .ioTime => { st with io.time := .ofNat v }
  | .ioWeighted => { st with io.weighted := .ofNat v }
  | .discardsCount => { st with discards.count := .ofNat v }
  | .discardsMerged => { st with discards.merged := .ofNat v }
  | .discardsBlocks => { st with discards.blocks := .ofNat v }
  | .discardsTime => { st with discards.time := .ofNat v }

/-- Assign the counters one after the other, as many as there are values. -/
def storeAll (st : Stat) (vs : List (Counter × ℕ)) : Stat :=
  vs.foldl (fun st v => st.store v.1 v.2) st

/-! ### What an assignment changes -/

theorem counter_store_self (st : Stat) (k : Counter) (v : ℕ) :
    (st.store k v).counter k = v % 2 ^ k.width := by
  cases k <;> simp [store, counter, Counter.width]

theorem counter_store_of_ne (st : Stat) {k j : Counter} (h : j ≠ k) (v : ℕ) :
    (st.store k v).counter j = st.counter j := by
  cases k <;> cases j <;> first | exact absurd rfl h | rfl

@[simp] theorem device_store (st : Stat) (k : Counter) (v : ℕ) :
    (st.store k v).device = st.device := by
  cases k <;> rfl

@[simp] theorem major_store (st : Stat) (k : Counter) (v : ℕ) :
    (st.store k v).major = st.major := by
  cases k <;> rfl

@[simp] theorem minor_store (st : Stat) (k : Counter) (v : ℕ) :
    (st.store k v).minor = st.minor := by
  cases k <;> rfl

/-- Assigning counters leaves the identity of the disk alone. -/
theorem identity_storeAll (vs : List (Counter × ℕ)) (st : Stat) :
    (st.storeAll vs).device = st.device ∧ (st.storeAll vs).major = st.major ∧
      (st.storeAll vs).minor = st.minor := by
  induction vs generalizing st with
  | nil => exact ⟨rfl, rfl, rfl⟩
  | cons v vs ih =>
    obtain ⟨hd, hj, hn⟩ := ih (st.store v.1 v.2)
    rw [storeAll, List.foldl_cons]
    exact ⟨hd.trans (device_store ..), hj.trans (major_store ..), hn.trans (minor_store ..)⟩

/-- A counter that is not assigned keeps its value. -/
theorem counter_storeAll_of_notMem {vs : List (Counter × ℕ)} {k : Counter}
    (h : ∀ v ∈ vs, v.1 ≠ k) (st : Stat) : (st.storeAll vs).counter k = st.counter k := by
  induction vs generalizing st with
  | nil => rfl
  | cons v vs ih =>
    rw [storeAll, List.foldl_cons]
    have hrest := ih (fun w hw => h w (List.mem_cons_of_mem _ hw)) (st.store v.1 v.2)
    exact hrest.trans (counter_store_of_ne st (h v (by simp)).symm v.2)

/-- Counters that are assigned once each have the value assigned, cut to their width. -/
theorem counter_storeAll {vs : List (Counter × ℕ)} (hnd : (vs.map (·.1)).Nodup) {k : Counter}
    {n : ℕ} (hk : (k, n) ∈ vs) (st : Stat) : (st.storeAll vs).counter k = n % 2 ^ k.width := by
  induction vs generalizing st with
  | nil => cases hk
  | cons v vs ih =>
    rw [List.map_cons, List.nodup_cons] at hnd
    rw [storeAll, List.foldl_cons]
    rcases List.mem_cons.mp hk with rfl | hk
    · have hnot : ∀ w ∈ vs, w.1 ≠ k := by
        intro w hw hwk
        apply hnd.1
        exact List.mem_map.mpr ⟨w, hw, hwk⟩
      exact (counter_storeAll_of_notMem hnot _).trans (counter_store_self st k n)
    · exact ih hnd.2 hk _

end Stat

theorem Counter.mem_all (k : Counter) : k ∈ Counter.all := by cases k <;> decide

theorem Counter.nodup_all : Counter.all.Nodup := by decide

namespace Stat

theorem counter_lt (st : Stat) (k : Counter) : st.counter k < 2 ^ k.width := by
  cases k <;> first | exact UInt64.toNat_lt _ | exact UInt32.toNat_lt _

/-- Two objects with the same identity and the same counters are the same. -/
theorem ext_counter {st s : Stat} (hd : st.device = s.device) (hj : st.major = s.major)
    (hn : st.minor = s.minor) (hc : ∀ k, st.counter k = s.counter k) : st = s := by
  obtain ⟨d, j, n, ⟨r1, r2, r3, r4⟩, ⟨w1, w2, w3, w4⟩, ⟨i1, i2, i3⟩, ⟨d1, d2, d3, d4⟩⟩ := st
  obtain ⟨d', j', n', ⟨r1', r2', r3', r4'⟩, ⟨w1', w2', w3', w4'⟩, ⟨i1', i2', i3'⟩,
    ⟨d1', d2', d3', d4'⟩⟩ := s
  have h64 {a b : UInt64} (h : a.toNat = b.toNat) : a = b := UInt64.toNat_inj.mp h
  have h32 {a b : UInt32} (h : a.toNat = b.toNat) : a = b := UInt32.toNat_inj.mp h
  obtain rfl : d = d' := hd
  obtain rfl : j = j' := hj
  obtain rfl : n = n' := hn
  obtain rfl := h64 (hc .readCount)
  obtain rfl := h64 (hc .readMerged)
  obtain rfl := h64 (hc .readBlocks)
  obtain rfl := h32 (hc .readTime)
  obtain rfl := h64 (hc .writeCount)
  obtain rfl := h64 (hc .writeMerged)
  obtain rfl := h64 (hc .writeBlocks)
  obtain rfl := h32 (hc .writeTime)
  obtain rfl := h32 (hc .ioInprogress)
  obtain rfl := h32 (hc .ioTime)
  obtain rfl := h32 (hc .ioWeighted)
  obtain rfl := h64 (hc .discardsCount)
  obtain rfl := h64 (hc .discardsMerged)
  obtain rfl := h64 (hc .discardsBlocks)
  obtain rfl := h64 (hc .discardsTime)
  rfl

/-! ### Assigning counters anew -/

/-- Counters that are listed once, whatever they are listed with. -/
theorem nodup_zip (values : List ℕ) : ((Counter.all.zip values).map (·.1)).Nodup := by
  rw [List.zip_eq_zip_take_min, List.map_fst_zip (by simp)]
  exact Counter.nodup_all.sublist (List.take_sublist _ _)

/-- Fifteen values that fit are the fifteen counters. -/
theorem map_counter_storeAll (st : Stat) {values : List ℕ} (hlen : values.length = 15)
    (hlt : ∀ v ∈ Counter.all.zip values, v.2 < 2 ^ v.1.width) :
    Counter.all.map (st.storeAll (Counter.all.zip values)).counter = values := by
  have hall : Counter.all.length = values.length := hlen.symm
  have hstored : ∀ v ∈ Counter.all.zip values,
      (st.storeAll (Counter.all.zip values)).counter v.1 = v.2 := by
    intro v hv
    rw [counter_storeAll (nodup_zip values) hv, Nat.mod_eq_of_lt (hlt v hv)]
  calc Counter.all.map (st.storeAll (Counter.all.zip values)).counter
      = ((Counter.all.zip values).map (·.1)).map
          (st.storeAll (Counter.all.zip values)).counter := by rw [List.map_fst_zip hall.le]
    _ = (Counter.all.zip values).map (·.2) := by
        rw [List.map_map]
        exact List.map_congr_left hstored
    _ = values := List.map_snd_zip hall.ge

/-- An assignment leaves the object as it is exactly when the values are the counters already. -/
theorem storeAll_eq_self_iff {st : Stat} {vs : List (Counter × ℕ)} (hnd : (vs.map (·.1)).Nodup)
    (hlt : ∀ v ∈ vs, v.2 < 2 ^ v.1.width) :
    st.storeAll vs = st ↔ ∀ v ∈ vs, st.counter v.1 = v.2 := by
  constructor
  · intro hsame v hv
    have hstored := counter_storeAll hnd hv st
    rwa [hsame, Nat.mod_eq_of_lt (hlt v hv)] at hstored
  · intro hvalues
    obtain ⟨hd, hj, hn⟩ := identity_storeAll vs st
    apply ext_counter hd hj hn
    intro k
    by_cases hk : ∃ v ∈ vs, v.1 = k
    · obtain ⟨v, hv, rfl⟩ := hk
      rw [counter_storeAll hnd hv, Nat.mod_eq_of_lt (hlt v hv), hvalues v hv]
    · apply counter_storeAll_of_notMem
      intro v hv hvk
      exact hk ⟨v, hv, hvk⟩

/-! ### Adding counters up -/

/-- `operator+=` adds every counter within the width of its field. -/
theorem counter_add (st s : Stat) (k : Counter) :
    (st.add s).counter k = (st.counter k + s.counter k) % 2 ^ k.width := by
  cases k <;> simp [add, counter, Counter.width, UInt64.toNat_add, UInt32.toNat_add]

end Stat

end SysInfo.Storage
