import Mathlib.Tactic.FieldSimp
import Mathlib.Tactic.NormNum
import Mathlib.Tactic.Positivity
import Mathlib.Tactic.Ring
import SysInfo.Lib.ExactFloat
import SysInfo.Storage.DiskStats

/-!
# `Storage::Data`: from two samples to a speed

One watched disk. Each successful `refresh` compares the new sample with the saved one and then
saves the new one, so the speed is a function of the last two samples that could be read and of
nothing else: not of the failed attempts in between, not of how the counters got there, and for
reading not of the counters of writing (`refresh_run_rates`). Bytes and milliseconds are exact
numbers, the millisecond counters are 32 bit and wrap.
-/

namespace SysInfo.Storage

open Lib (ExactFloat)

/-- What is kept of a sample, for reading or for writing. -/
structure Saved where
  bytes : ℚ := 0
  time : UInt32 := 0
  deriving DecidableEq

/-- The anonymous structure `saved`. -/
@[ext]
structure SavedCycle where
  read : Saved := {}
  write : Saved := {}
  deriving DecidableEq

/-- `Storage::Data`. The `float` that holds the block size is the integer it was made from. -/
@[ext]
structure Data where
  device : String
  error : String := ""
  blocksize : ℕ
  read : ExactFloat := .fin 0
  write : ExactFloat := .fin 0
  saved : SavedCycle := {}
  deriving DecidableEq

namespace Data

/-- `Storage::Data::Data(const Stat &)`. -/
def ofStat (h : Host) (stat : Stat) : Except Exception Data := do
  let blocksize ← stat.blocksize h
  return { device := stat.device, blocksize := blocksize }

/-- `bytes / (time/1000.0)` under its guard. -/
def speedOf (bytes time : ℚ) : ExactFloat :=
  if 0 < bytes ∧ 0 < time then .fin bytes / .fin (time / 1000) else .fin 0

/-- `refresh()`. `statOf` is the constructor `Storage::Stat(const char *)`, which may throw. -/
def refresh (statOf : String → Except Exception Stat) : EStateM Exception Data Unit := do
  let d ← get
  let stat ← ofExcept (statOf d.device)
  let bytesRead : ℚ := stat.read.blocks.toNat * d.blocksize - d.saved.read.bytes
  let bytesWrite : ℚ := stat.write.blocks.toNat * d.blocksize - d.saved.write.bytes
  -- the difference is taken in `unsigned int` before it becomes a `float`
  let timeRead : ℚ := (stat.read.time - d.saved.read.time).toNat
  let timeWrite : ℚ := (stat.write.time - d.saved.write.time).toNat
  set { d with
    read := speedOf bytesRead timeRead
    write := speedOf bytesWrite timeWrite
    saved :=
      { read := { bytes := stat.read.blocks.toNat * d.blocksize, time := stat.read.time }
        write := { bytes := stat.write.blocks.toNat * d.blocksize, time := stat.write.time } } }

theorem ofStat_eq_ok_iff {h : Host} {stat : Stat} {d : Data} :
    ofStat h stat = .ok d ↔
      ∃ n, stat.blocksize h = .ok n ∧ d = { device := stat.device, blocksize := n } := by
  rw [ofStat, Lib.bind_eq_ok_iff]
  apply exists_congr
  intro n
  apply and_congr_right
  intro _
  show Except.ok _ = .ok d ↔ _
  rw [Except.ok.injEq, eq_comm]

/-- The object after a call of `refresh` that sees the sample or the exception `reading`. -/
def attempt (d : Data) (reading : Except Exception Stat) : Data :=
  match (refresh fun _ => reading).run d with
  | .ok _ d' => d'
  | .error _ d' => d'

/-- The object after a sequence of calls. -/
def run (d : Data) (readings : List (Except Exception Stat)) : Data := readings.foldl attempt d

end Data

/-! ## The two directions

Reading and writing are computed by the same statements over different fields. -/

inductive Direction where
  | read
  | write
  deriving DecidableEq, Repr

def Stat.transfer (st : Stat) : Direction → Transfer
  | .read => st.read
  | .write => st.write

def Data.speed (d : Data) : Direction → ExactFloat
  | .read => d.read
  | .write => d.write

def Data.last (d : Data) : Direction → Saved
  | .read => d.saved.read
  | .write => d.saved.write

namespace Data

/-- What a sample leaves behind on a disk with this block size. -/
def sampled (blocksize : ℕ) (t : Transfer) : Saved where
  bytes := t.blocks.toNat * blocksize
  time := t.time

/-- The speed from what was saved to a sample. -/
def speedSince (blocksize : ℕ) (prev : Saved) (t : Transfer) : ExactFloat :=
  speedOf (t.blocks.toNat * blocksize - prev.bytes) (t.time - prev.time).toNat

/-! ### One call -/

theorem attempt_error (d : Data) (e : Exception) : d.attempt (.error e) = d := rfl

theorem attempt_ok (d : Data) (stat : Stat) :
    d.attempt (.ok stat) =
      { d with
        read := speedSince d.blocksize d.saved.read stat.read
        write := speedSince d.blocksize d.saved.write stat.write
        saved :=
          { read := sampled d.blocksize stat.read
            write := sampled d.blocksize stat.write } } := rfl

@[simp] theorem attempt_blocksize (d : Data) (r : Except Exception Stat) :
    (d.attempt r).blocksize = d.blocksize := by
  cases r <;> rfl

theorem attempt_ok_last (d : Data) (stat : Stat) (dir : Direction) :
    (d.attempt (.ok stat)).last dir = sampled d.blocksize (stat.transfer dir) := by
  cases dir <;> rfl

theorem attempt_ok_speed (d : Data) (stat : Stat) (dir : Direction) :
    (d.attempt (.ok stat)).speed dir =
      speedSince d.blocksize (d.last dir) (stat.transfer dir) := by
  cases dir <;> rfl

/-! ### A run of calls -/

/-- The samples of a run, without the attempts that threw. -/
def successes (readings : List (Except Exception Stat)) : List Stat :=
  readings.filterMap Except.toOption

theorem run_concat (d : Data) (rs : List (Except Exception Stat)) (r : Except Exception Stat) :
    d.run (rs ++ [r]) = (d.run rs).attempt r := by
  simp [run, List.foldl_append]

@[simp] theorem run_blocksize (d : Data) (rs : List (Except Exception Stat)) :
    (d.run rs).blocksize = d.blocksize := by
  induction rs using List.reverseRecOn with
  | nil => rfl
  | append_singleton rs r ih => rw [run_concat, attempt_blocksize, ih]

theorem successes_concat_ok (rs : List (Except Exception Stat)) (s : Stat) :
    successes (rs ++ [.ok s]) = successes rs ++ [s] := by
  simp [successes, Except.toOption]

theorem successes_concat_error (rs : List (Except Exception Stat)) (e : Exception) :
    successes (rs ++ [.error e]) = successes rs := by
  simp [successes, Except.toOption]

/-- **The invariant**: what is saved is exactly the last sample that could be read. -/
theorem last_run {d : Data} {rs : List (Except Exception Stat)} {s : Stat}
    (hs : (successes rs).getLast? = some s) (dir : Direction) :
    (d.run rs).last dir = sampled d.blocksize (s.transfer dir) := by
  induction rs using List.reverseRecOn with
  | nil => simp [successes] at hs
  | append_singleton rs r ih =>
    rw [run_concat]
    cases r with
    | error e =>
      rw [successes_concat_error] at hs
      rw [attempt_error, ih hs]
    | ok s' =>
      rw [successes_concat_ok, List.getLast?_concat, Option.some.injEq] at hs
      rw [attempt_ok_last, run_blocksize, hs]

/-! ### The speed as a rate -/

/-- Bytes per second between two samples: the sectors transferred, over the milliseconds spent, 0
when either did not grow. -/
def rate (blocksize blocks blocks' time time' : ℕ) : ℚ :=
  if blocks < blocks' ∧ time < time' then
    ((blocks' : ℚ) - blocks) * blocksize * 1000 / ((time' : ℚ) - time)
  else 0

/-- Unsigned subtraction of two readings of a 32 bit clock gives the true difference, as long as
the clock has not gone round in between. -/
theorem toNat_sub_of_wrap {a b : UInt32} {s t : ℕ} (ha : a.toNat = s % 2 ^ 32)
    (hb : b.toNat = t % 2 ^ 32) (hle : s ≤ t) (hlt : t - s < 2 ^ 32) : (b - a).toNat = t - s := by
  rw [UInt32.toNat_sub, ha, hb]
  omega

theorem speedOf_of_pos {bytes time : ℚ} (hb : 0 < bytes) (ht : 0 < time) :
    speedOf bytes time = .fin (bytes / (time / 1000)) := by
  have hne : time / 1000 ≠ 0 := by positivity
  rw [speedOf, if_pos ⟨hb, ht⟩, ExactFloat.fin_div_fin hne]

/-- Whatever it is computed from, a speed is a number and not negative: the divisor is never 0. -/
theorem speedOf_nonneg (bytes time : ℚ) : ∃ q, speedOf bytes time = .fin q ∧ 0 ≤ q := by
  by_cases h : 0 < bytes ∧ 0 < time
  · obtain ⟨hb, ht⟩ := h
    exact ⟨_, speedOf_of_pos hb ht, by positivity⟩
  · exact ⟨0, if_neg h, le_refl 0⟩

/-- The speed since a saved sample is the rate between the two samples. -/
theorem speedSince_sampled {blocksize : ℕ} {t t' : Transfer} {T T' : ℕ}
    (hT : t.time.toNat = T % 2 ^ 32) (hT' : t'.time.toNat = T' % 2 ^ 32) (hle : T ≤ T')
    (hlt : T' - T < 2 ^ 32) :
    speedSince blocksize (sampled blocksize t) t' =
      .fin (rate blocksize t.blocks.toNat t'.blocks.toNat T T') := by
  have htime : ((t'.time - t.time).toNat : ℚ) = (T' : ℚ) - T := by
    rw [toNat_sub_of_wrap hT hT' hle hlt, Nat.cast_sub hle]
  have hbytes : (t'.blocks.toNat * blocksize : ℚ) - t.blocks.toNat * blocksize =
      ((t'.blocks.toNat : ℚ) - t.blocks.toNat) * blocksize := by ring
  show speedOf ((t'.blocks.toNat * blocksize : ℚ) - t.blocks.toNat * blocksize)
    (t'.time - t.time).toNat = _
  rw [htime, hbytes]
  by_cases hguard : t.blocks.toNat < t'.blocks.toNat ∧ T < T'
  · obtain ⟨hb, ht⟩ := hguard
    have hb' : (0 : ℚ) < (t'.blocks.toNat : ℚ) - t.blocks.toNat := by
      rw [sub_pos]; exact_mod_cast hb
    have ht' : (0 : ℚ) < (T' : ℚ) - T := by rw [sub_pos]; exact_mod_cast ht
    rw [rate, if_pos ⟨hb, ht⟩]
    rcases Nat.eq_zero_or_pos blocksize with rfl | hpos
    · simp [speedOf]
    · have hbs : (0 : ℚ) < blocksize := by exact_mod_cast hpos
      rw [speedOf_of_pos (mul_pos hb' hbs) ht']
      congr 1
      field_simp
  · rw [rate, if_neg hguard, speedOf, if_neg]
    rintro ⟨hb, ht⟩
    apply hguard
    refine ⟨?_, by exact_mod_cast sub_pos.mp ht⟩
    have hbs : (0 : ℚ) ≤ blocksize := Nat.cast_nonneg _
    exact_mod_cast sub_pos.mp (pos_of_mul_pos_left hb hbs)

/-! ### What holds of every run -/

/-- A speed that has become known is a number and not negative, and stays one. -/
theorem speed_run_nonneg {d : Data} {rs : List (Except Exception Stat)} {dir : Direction}
    (h : (∃ q, d.speed dir = .fin q ∧ 0 ≤ q) ∨ successes rs ≠ []) :
    ∃ q, (d.run rs).speed dir = .fin q ∧ 0 ≤ q := by
  induction rs using List.reverseRecOn with
  | nil => exact h.resolve_right (by simp [successes])
  | append_singleton rs r ih =>
    rw [run_concat]
    cases r with
    | error e =>
      rw [successes_concat_error] at h
      exact ih h
    | ok s =>
      rw [attempt_ok_speed]
      exact speedOf_nonneg _ _

/-- Interval rate: after a successful attempt the speed is the rate since the last successful one
before it. -/
theorem speed_run_rate {d : Data} {rs : List (Except Exception Stat)} {s s' : Stat}
    {dir : Direction} (hlast : (successes rs).getLast? = some s) {T T' : ℕ}
    (hT : (s.transfer dir).time.toNat = T % 2 ^ 32)
    (hT' : (s'.transfer dir).time.toNat = T' % 2 ^ 32) (hle : T ≤ T') (hlt : T' - T < 2 ^ 32) :
    (d.run (rs ++ [.ok s'])).speed dir =
      .fin (rate d.blocksize (s.transfer dir).blocks.toNat (s'.transfer dir).blocks.toNat
        T T') := by
  rw [run_concat, attempt_ok_speed, run_blocksize, last_run hlast]
  exact speedSince_sampled hT hT' hle hlt

/-- After a successful attempt nothing older than the sample before it matters. -/
theorem speed_run_congr {d d' : Data} {rs rs' : List (Except Exception Stat)} {s s' : Stat}
    (hbs : d.blocksize = d'.blocksize) (hlast : (successes rs).getLast? = some s)
    (hlast' : (successes rs').getLast? = some s) (dir : Direction) :
    (d.run (rs ++ [.ok s'])).speed dir = (d'.run (rs' ++ [.ok s'])).speed dir := by
  rw [run_concat, run_concat, attempt_ok_speed, attempt_ok_speed, run_blocksize, run_blocksize,
    last_run hlast, last_run hlast', hbs]

/-- Sectors that went backwards count as no transfer. -/
theorem speed_run_backwards {d : Data} {rs : List (Except Exception Stat)} {s s' : Stat}
    {dir : Direction} (hlast : (successes rs).getLast? = some s)
    (hback : (s'.transfer dir).blocks ≤ (s.transfer dir).blocks) :
    (d.run (rs ++ [.ok s'])).speed dir = .fin 0 := by
  have hle : ((s'.transfer dir).blocks.toNat : ℚ) ≤ (s.transfer dir).blocks.toNat := by
    exact_mod_cast UInt64.le_iff_toNat_le.mp hback
  have hbytes : ¬ (0 : ℚ) < (s'.transfer dir).blocks.toNat * d.blocksize -
      (s.transfer dir).blocks.toNat * d.blocksize := by
    rw [sub_pos, not_lt]
    exact mul_le_mul_of_nonneg_right hle (Nat.cast_nonneg _)
  rw [run_concat, attempt_ok_speed, run_blocksize, last_run hlast]
  apply if_neg
  intro h
  exact hbytes h.1

/-- What one direction can see of an attempt: its counters, or that there was no sample. -/
def view (dir : Direction) (r : Except Exception Stat) : Option Transfer :=
  r.toOption.map (·.transfer dir)

/-- What one direction can see of the object. -/
def sees (dir : Direction) (d : Data) : ℕ × Saved × ExactFloat :=
  (d.blocksize, d.last dir, d.speed dir)

theorem sees_attempt {d d' : Data} {dir : Direction} {r r' : Except Exception Stat}
    (hd : sees dir d = sees dir d') (hr : view dir r = view dir r') :
    sees dir (d.attempt r) = sees dir (d'.attempt r') := by
  simp only [sees, Prod.mk.injEq] at hd
  obtain ⟨hbs, hlast, hspeed⟩ := hd
  cases r with
  | error e =>
    cases r' with
    | error e' => grind [sees, attempt_error]
    | ok s' => simp [view, Except.toOption] at hr
  | ok s =>
    cases r' with
    | error e' => simp [view, Except.toOption] at hr
    | ok s' =>
      have ht : s.transfer dir = s'.transfer dir := by simpa [view, Except.toOption] using hr
      simp [sees, attempt_ok_last, attempt_ok_speed, hbs, hlast, ht]

/-- **Non-interference**: two runs that look the same in one direction end the same in it. -/
theorem sees_run {dir : Direction} {rs rs' : List (Except Exception Stat)}
    (hrs : rs.map (view dir) = rs'.map (view dir)) {d d' : Data} (hd : sees dir d = sees dir d') :
    sees dir (d.run rs) = sees dir (d'.run rs') := by
  induction rs generalizing rs' d d' with
  | nil =>
    obtain rfl : rs' = [] := by simpa using hrs
    exact hd
  | cons r rs ih =>
    cases rs' with
    | nil => simp at hrs
    | cons r' rs' =>
      rw [List.map_cons, List.map_cons, List.cons.injEq] at hrs
      exact ih hrs.2 (sees_attempt hd hrs.1)

/-- **Interval rate over a whole run.** For every object and every sequence of attempts, in both
directions: the speed after a successful attempt is the rate since the previous successful one,
whatever the true clocks behind the 32 bit ones, as long as they are less than a turn apart; speeds
are numbers and not negative; an attempt that throws changes nothing; sectors that go backwards give
0 and are forgotten with the next sample; and neither direction depends on the other. -/
theorem refresh_run_rates (d : Data) (rs : List (Except Exception Stat)) (dir : Direction) :
    (∀ s s' T T', (successes rs).getLast? = some s → (s.transfer dir).time.toNat = T % 2 ^ 32 →
      (s'.transfer dir).time.toNat = T' % 2 ^ 32 → T ≤ T' → T' - T < 2 ^ 32 →
      (d.run (rs ++ [.ok s'])).speed dir = .fin (rate d.blocksize
        (s.transfer dir).blocks.toNat (s'.transfer dir).blocks.toNat T T')) ∧
    ((∃ q, d.speed dir = .fin q ∧ 0 ≤ q) ∨ successes rs ≠ [] →
      ∃ q, (d.run rs).speed dir = .fin q ∧ 0 ≤ q) ∧
    (∀ e, d.run (rs ++ [.error e]) = d.run rs) ∧
    (∀ s s', (successes rs).getLast? = some s →
      (s'.transfer dir).blocks < (s.transfer dir).blocks →
      (d.run (rs ++ [.ok s'])).speed dir = .fin 0) ∧
    (∀ (d' : Data) rs' s s', d.blocksize = d'.blocksize → (successes rs).getLast? = some s →
      (successes rs').getLast? = some s →
      (d.run (rs ++ [.ok s'])).speed dir = (d'.run (rs' ++ [.ok s'])).speed dir) ∧
    (∀ (d' : Data) rs', sees dir d = sees dir d' → rs.map (view dir) = rs'.map (view dir) →
      (d.run rs).speed dir = (d'.run rs').speed dir) := by
  refine ⟨?_, speed_run_nonneg, ?_, ?_, ?_, ?_⟩
  · intro s s' T T' hlast hT hT' hle hlt
    exact speed_run_rate hlast hT hT' hle hlt
  · intro e
    rw [run_concat, attempt_error]
  · intro s s' hlast hback
    exact speed_run_backwards hlast (UInt64.le_of_lt hback)
  · intro d' rs' s s' hbs hlast hlast'
    exact speed_run_congr hbs hlast hlast' dir
  · intro d' rs' hd hrs
    exact congrArg (·.2.2) (sees_run hrs hd)

/-- The clock of the second sample has gone round: 1000 sectors in 500 ms, on a disk with blocks of
512 bytes, are 1024000 bytes per second. -/
theorem refresh_run_rates_wrapped :
    (({ device := "sda", blocksize := 512 } : Data).run
      [.ok { device := "sda", read := { blocks := 7000, time := 4294967196 } },
        .error (.runtimeError "busy"),
        .ok { device := "sda", read := { blocks := 8000, time := 400 } }]).read = .fin 1024000 := by
  have h := (refresh_run_rates { device := "sda", blocksize := 512 }
    [.ok { device := "sda", read := { blocks := 7000, time := 4294967196 } },
      .error (.runtimeError "busy")] .read).1
    { device := "sda", read := { blocks := 7000, time := 4294967196 } }
    { device := "sda", read := { blocks := 8000, time := 400 } } 4294967196 4294967696
    rfl rfl rfl (by decide) (by decide)
  apply h.trans
  norm_num [rate, Stat.transfer, UInt64.toNat_ofNat]

end Data

end SysInfo.Storage
