import SysInfo.Lib.FixedPoint
import SysInfo.Storage.Action
import SysInfo.Storage.DeviceName
import SysInfo.Storage.Identity
import SysInfo.Storage.Speed

/-!
# The text of a speed

    counters of the kernel ──load──▶ Stat ──refresh──▶ speed ──to_string──▶ "12.34 KB/s"
                                                                     ◀──readSpeed──

What a reader of the text knows of the speed: the unit, which is one a node can ask for, and the
value up to half a hundredth of it (`speed_text_round_trip`). Put together with the readers and with
`refresh` in exact arithmetic, this is a statement about the counters of the kernel
(`measured_speed_displayed`).
-/

namespace SysInfo.Storage

open Lib (ExactFloat)
open Lib.CString
open Lib.CScan Lib.FixedPoint

/-! ## Units -/

/-- No two entries of the table are equal without regard to case. -/
theorem SizeUnit.eq_of_strcaseeq {u u' : SizeUnit} (h : strcaseeq u.entry.2 u'.entry.2 = true) :
    u = u' := by
  revert h
  cases u <;> cases u' <;> decide

/-- **The unit of a node** is the one whose text is the attribute, without regard to case. -/
theorem unitFactory_ok_iff (node : XmlNode) (u : SizeUnit) :
    unitFactory node = .ok u ↔
      strcaseeq ((node.asString "size-unit").getD "KB") u.entry.2 = true := by
  unfold unitFactory
  generalize (node.asString "size-unit").getD "KB" = attr
  dsimp only
  have hmem : u ∈ [SizeUnit.byte, .kilobyte, .megabyte, .gigabyte, .terabyte] := by
    cases u <;> simp
  split
  · next u' hfind =>
    have htext : strcaseeq attr u'.entry.2 = true :=
      List.find?_some (p := fun u : SizeUnit => strcaseeq attr u.entry.2) hfind
    constructor
    · intro hok
      rwa [← Except.ok.inj hok]
    · intro hu
      have hsame : u' = u := SizeUnit.eq_of_strcaseeq
        (ignoringCase.trans (ignoringCase.symm htext) hu)
      rw [hsame]
  · next hnone =>
    constructor
    · intro hok
      cases hok
    · intro hu
      exact absurd hu (List.find?_eq_none.mp hnone u hmem)

theorem SizeUnit.factor_pos (u : SizeUnit) : (0 : ℚ) < u.entry.1 := by
  cases u <;> norm_num [SizeUnit.entry]

/-! ## Rounding -/

theorem nearest_roundHalfEven (q : ℚ) : Nearest (roundHalfEven q) q := by
  have hlow := Int.floor_le q
  have hhigh := Int.lt_floor_add_one q
  unfold Nearest roundHalfEven
  dsimp only
  rw [abs_le]
  split_ifs
  · constructor <;> linarith
  · push_cast
    constructor <;> linarith
  · constructor <;> linarith
  · push_cast
    constructor <;> linarith

theorem roundHalfEven_mono {p q : ℚ} (hpq : p ≤ q) : roundHalfEven p ≤ roundHalfEven q := by
  rcases hpq.eq_or_lt with rfl | hlt
  · exact le_refl _
  · exact (nearest_roundHalfEven p).le_of_lt (nearest_roundHalfEven q) hlt

theorem roundHalfEven_int (n : ℤ) : roundHalfEven n = n :=
  (nearest_roundHalfEven n).eq_of_int

/-! ## The characters -/

theorem toList_toString (n : ℕ) : (toString n).toList = decimal n := Nat.toList_repr

/-- The hundredths that are written for a value. -/
def hundredths (q : ℚ) : ℕ := (roundHalfEven (q * 100)).toNat

theorem cast_hundredths {q : ℚ} (hq : 0 ≤ q) : (hundredths q : ℤ) = roundHalfEven (q * 100) := by
  apply Int.toNat_of_nonneg
  exact (nearest_roundHalfEven _).nonneg (by positivity)

theorem fixed2_of_nonneg {q : ℚ} (hq : 0 ≤ q) :
    (fixed2 (.fin q)).toList = fixed 2 (hundredths q) := by
  have habs : (roundHalfEven (q * 100)).natAbs = hundredths q := by
    rw [← cast_hundredths hq]
    rfl
  have htens : decimal (hundredths q % 100 / 10) = [Nat.digitChar (hundredths q / 10 % 10)] := by
    rw [show hundredths q % 100 / 10 = hundredths q / 10 % 10 by omega]
    exact Nat.toDigits_of_lt_base (by omega)
  have hones : decimal (hundredths q % 10) = [Nat.digitChar (hundredths q % 10)] :=
    Nat.toDigits_of_lt_base (by omega)
  rw [fixed2, habs, if_neg (not_lt.mpr hq)]
  simp only [String.toList_append, toList_toString, htens, hones]
  simp [fixed, lastDigits]

/-- What a reader makes of the text of a speed: the number and the text of the unit. -/
def readSpeed (text : String) : Option (ℚ × String) :=
  match readFixed text.toList with
  | some (v, ' ' :: rest) => some (v, String.ofList (rest.take (rest.length - 2)))
  | _ => none

/-- **The text of a speed is read back** as the hundredths that were written. -/
theorem readSpeed_speedText {q : ℚ} (hq : 0 ≤ q) (unit : SizeUnit) :
    readSpeed (speedText (.fin q) unit) =
      some ((hundredths (q / unit.entry.1) : ℚ) / 100, unit.entry.2) := by
  have hscaled : 0 ≤ q / unit.entry.1 := div_nonneg hq unit.factor_pos.le
  have hblank : NoDigit (' ' :: (unit.entry.2.toList ++ ['/', 's'])) := by
    intro c hc
    obtain rfl : ' ' = c := Option.some.inj hc
    rfl
  have hchars : (speedText (.fin q) unit).toList =
      fixed 2 (hundredths (q / unit.entry.1)) ++ ' ' :: (unit.entry.2.toList ++ ['/', 's']) := by
    rw [speedText, ExactFloat.fin_div_fin unit.factor_pos.ne']
    simp only [String.toList_append, fixed2_of_nonneg hscaled]
    simp
  have hunit : (unit.entry.2.toList ++ ['/', 's']).take
      ((unit.entry.2.toList ++ ['/', 's']).length - 2) = unit.entry.2.toList := by
    simp
  simp only [readSpeed, hchars, readFixed_fixed 2 _ hblank, hunit, String.ofList_toList]
  norm_num

/-- It is the speed up to half a hundredth of the unit. -/
theorem exists_readSpeed {q : ℚ} (hq : 0 ≤ q) (unit : SizeUnit) :
    ∃ v, readSpeed (speedText (.fin q) unit) = some (v, unit.entry.2) ∧ 0 ≤ v ∧
      |v - q / unit.entry.1| ≤ 1 / 200 := by
  refine ⟨_, readSpeed_speedText hq unit, by positivity, ?_⟩
  have hnearest : Nearest (hundredths (q / unit.entry.1)) (q / unit.entry.1 * 10 ^ 2) := by
    rw [cast_hundredths (div_nonneg hq unit.factor_pos.le)]
    norm_num [nearest_roundHalfEven]
  have hclose := abs_div_pow_sub_le hnearest
  norm_num at hclose ⊢
  exact hclose

/-- **What a reader knows of a speed.** The text of a speed gives the speed up to half a hundredth
of its unit, and all of it when it has no more than two decimals; a faster transfer is not shown as
a slower one; and the unit it names is one that a node can ask for, and means the same there. -/
theorem speed_text_round_trip (unit : SizeUnit) :
    (∀ q, 0 ≤ q → ∃ v, readSpeed (speedText (.fin q) unit) = some (v, unit.entry.2) ∧ 0 ≤ v ∧
      |v - q / unit.entry.1| ≤ 1 / 200) ∧
    (∀ n : ℕ, readSpeed (speedText (.fin (n / 100 * unit.entry.1)) unit) =
      some ((n : ℚ) / 100, unit.entry.2)) ∧
    (∀ p q, 0 ≤ p → p ≤ q → ∃ v w, readSpeed (speedText (.fin p) unit) = some (v, unit.entry.2) ∧
      readSpeed (speedText (.fin q) unit) = some (w, unit.entry.2) ∧ v ≤ w) ∧
    (∀ node : XmlNode, node.asString "size-unit" = some unit.entry.2 →
      unitFactory node = .ok unit) := by
  have hfactor := unit.factor_pos
  refine ⟨fun q hq => exists_readSpeed hq unit, ?_, ?_, ?_⟩
  · intro n
    have hexact : hundredths (n / 100 * unit.entry.1 / unit.entry.1) = n := by
      rw [mul_div_cancel_right₀ _ hfactor.ne', hundredths, div_mul_cancel₀ _ (by norm_num)]
      have hint := roundHalfEven_int n
      rw [Int.cast_natCast] at hint
      rw [hint, Int.toNat_natCast]
    rw [readSpeed_speedText (by positivity), hexact]
  · intro p q hp hpq
    have hq : 0 ≤ q := hp.trans hpq
    refine ⟨_, _, readSpeed_speedText hp unit, readSpeed_speedText hq unit, ?_⟩
    have hscaled : p / unit.entry.1 * 100 ≤ q / unit.entry.1 * 100 := by
      gcongr
    have hround : hundredths (p / unit.entry.1) ≤ hundredths (q / unit.entry.1) :=
      Int.toNat_le_toNat (roundHalfEven_mono hscaled)
    gcongr
  · intro node hnode
    apply (unitFactory_ok_iff node unit).mpr
    rw [hnode]
    exact ignoringCase.refl _

/-! ## From the counters of the kernel to the text -/

/-- The counters a direction is measured by. -/
def Direction.blocks : Direction → Counter
  | .read => .readBlocks
  | .write => .writeBlocks

def Direction.time : Direction → Counter
  | .read => .readTime
  | .write => .writeTime

theorem Stat.transfer_blocks (st : Stat) (dir : Direction) :
    (st.transfer dir).blocks.toNat = st.counter dir.blocks := by
  cases dir <;> rfl

theorem Stat.transfer_time (st : Stat) (dir : Direction) :
    (st.transfer dir).time.toNat = st.counter dir.time := by
  cases dir <;> rfl

/-- The machine has a `stat` file for the device, with a count of reads that is padded. -/
structure Serves (h : Host) (r : Record) : Prop where
  text : h.text ("/sys/block/" ++ r.name ++ "/stat") = .ok r.statText
  padded : r.counter .readCount < 10 ^ 7

/-- The object built by the name of the device has its counters. -/
theorem ofName_of_serves {h : Host} {r : Record} (hs : Serves h r)
    (hslash : '/' ∉ r.name.toList) :
    ∃ st, Stat.ofName h r.name = .ok st ∧ ∀ k, st.counter k = r.counter k := by
  have hchars : cstr r.name = r.name.toList := by
    apply List.takeWhile_eq_self_iff.mpr
    intro c hc
    simpa using (r.name_word c hc).2
  have hne : cstr r.name ≠ [] := by
    rw [hchars]
    exact fun hnil => r.name_ne (String.toList_eq_nil_iff.mp hnil)
  have hfactory : Device.nameFactory r.name false = .ok r.name := by
    rw [nameFactory_of_notMem hne (by rwa [hchars]), hchars, String.ofList_toList]
  have hserved : Record.ServedBy h { device := r.name } r := ⟨r.name_ne, hs.text⟩
  rw [ofName_named hfactory r.name_ne, Record.load_of_lt hserved hs.padded]
  exact ⟨_, rfl, Record.counter_storeAll_numbers r _⟩

theorem getLast?_successes (before : List (Except Exception Stat)) (s : Stat)
    (failed : List Exception) :
    (Data.successes (before ++ [.ok s] ++ failed.map .error)).getLast? = some s := by
  induction failed using List.reverseRecOn with
  | nil =>
    rw [List.map_nil, List.append_nil, Data.successes_concat_ok, List.getLast?_concat]
  | append_singleton failed e ih =>
    rw [List.map_append, List.map_singleton, ← List.append_assoc, Data.successes_concat_error, ih]

/-- **What is shown of the rate of the kernel's counters.** The counters are in sectors of 512
bytes, and what is read off the text is their rate in bytes times the block size over 512, up to
half a hundredth of the unit, in exact arithmetic: for a disk that is refreshed at two moments,
whatever came before and however many attempts failed in between, as long as the count of reads is
padded at both and the clock of the kernel has not gone round. With blocks of 512 bytes it is the
rate. -/
theorem measured_speed_displayed (d : Data) (r r' : Record) (h h' : Host)
    (hdevice : d.device = r.name) (hname : r'.name = r.name) (hslash : '/' ∉ r.name.toList)
    (hs : Serves h r) (hs' : Serves h' r') (before : List (Except Exception Stat))
    (failed : List Exception) (dir : Direction) (T T' : ℕ)
    (hT : r.counter dir.time = T % 2 ^ 32) (hT' : r'.counter dir.time = T' % 2 ^ 32)
    (hle : T ≤ T') (hlt : T' - T < 2 ^ 32) (unit : SizeUnit) :
    ∃ s s' v, Stat.ofName h d.device = .ok s ∧ Stat.ofName h' d.device = .ok s' ∧
      readSpeed (speedText ((d.run (before ++ [.ok s] ++ failed.map .error ++ [.ok s'])).speed dir)
        unit) = some (v, unit.entry.2) ∧
      |v - d.blocksize / 512 *
        Data.rate 512 (r.counter dir.blocks) (r'.counter dir.blocks) T T' / unit.entry.1| ≤
          1 / 200 := by
  obtain ⟨s, hbuilt, hcounters⟩ := ofName_of_serves hs hslash
  obtain ⟨s', hbuilt', hcounters'⟩ := ofName_of_serves hs' (by rwa [hname])
  -- the attempts that failed in between leave the sample of the first moment where it is
  have hspeed : (d.run (before ++ [.ok s] ++ failed.map .error ++ [.ok s'])).speed dir =
      .fin (Data.rate d.blocksize (r.counter dir.blocks) (r'.counter dir.blocks) T T') := by
    rw [← hcounters, ← hcounters', ← Stat.transfer_blocks, ← Stat.transfer_blocks]
    apply Data.speed_run_rate (getLast?_successes before s failed) _ _ hle hlt
    · rw [Stat.transfer_time, hcounters, hT]
    · rw [Stat.transfer_time, hcounters', hT']
  have hnonneg : 0 ≤
      Data.rate d.blocksize (r.counter dir.blocks) (r'.counter dir.blocks) T T' := by
    have hsome : Data.successes (before ++ [.ok s] ++ failed.map .error ++ [.ok s']) ≠ [] := by
      rw [Data.successes_concat_ok]
      simp
    obtain ⟨q, hq, hpos⟩ : ∃ q, (d.run _).speed dir = .fin q ∧ 0 ≤ q :=
      Data.speed_run_nonneg (Or.inr hsome)
    rw [hspeed] at hq
    rwa [ExactFloat.fin.inj hq]
  obtain ⟨v, hread, -, hclose⟩ := exists_readSpeed hnonneg unit
  rw [Data.rate_eq_mul] at hclose
  refine ⟨s, s', v, ?_, ?_, ?_, hclose⟩
  · rw [hdevice, hbuilt]
  · rw [hdevice, ← hname, hbuilt']
  · rw [hspeed, hread]

/-- The disk of `servingSda` a little later: 2000 sectors more in 200 ms. -/
def sdaLater : Record where
  __ := sda 7
  counter k := if k = .readBlocks then 2007 else if k = .readTime then 207 else 7
  counter_lt k := by cases k <;> decide

def servingLater : Host where
  __ := Host.bare
  text _ := .ok sdaLater.statText

/-- They are 5000 KB/s, and eight times as much is shown when a block is eight sectors. -/
theorem measured_speed_displayed_sda :
    ∃ s s' v, Stat.ofName servingSda "sda" = .ok s ∧ Stat.ofName servingLater "sda" = .ok s' ∧
      readSpeed (speedText ((({ device := "sda", blocksize := 4096 } : Data).run
        ([] ++ [.ok s] ++ [unexpectedFormat].map .error ++ [.ok s'])).speed .read) .kilobyte) =
          some (v, "KB") ∧ |v - 8 * 5000| ≤ 1 / 200 := by
  obtain ⟨s, s', v, hs, hs', hread, hclose⟩ := measured_speed_displayed
    { device := "sda", blocksize := 4096 } (sda 7) sdaLater servingSda servingLater rfl rfl
    (by decide) ⟨rfl, by decide⟩ ⟨rfl, by decide⟩ [] [unexpectedFormat] .read 7 207 rfl rfl
    (by omega) (by omega) .kilobyte
  have hrate : ((4096 : ℕ) : ℚ) / 512 * Data.rate 512 ((sda 7).counter Direction.read.blocks)
      (sdaLater.counter Direction.read.blocks) 7 207 / SizeUnit.kilobyte.entry.1 = 8 * 5000 := by
    rw [show (sda 7).counter Direction.read.blocks = 7 from rfl,
      show sdaLater.counter Direction.read.blocks = 2007 from rfl]
    norm_num [Data.rate, SizeUnit.entry]
  rw [hrate] at hclose
  exact ⟨s, s', v, hs, hs', hread, hclose⟩

end SysInfo.Storage
