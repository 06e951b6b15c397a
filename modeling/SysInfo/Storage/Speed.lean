import SysInfo.Storage.Controller

/-!
# What the speed of a watched disk means

Two facts are fixed when a disk is inserted and decide what every later speed means: the factor
between sectors and bytes, which is the logical block size, and the sample the first difference is
taken from, which is empty.

    Stat ──push_back──▶ Data { blocksize, saved := {} } ──refresh──▶ speed

The counters are in sectors of 512 bytes and go back to when the machine was started
(`speed_in_bytes_iff`, `speed_since_insertion_iff`).
-/

namespace SysInfo.Storage

open Lib (ExactFloat)
open Lib.FirstOccurrence

namespace Data

/-! ## Comparing rates -/

theorem rate_of_lt {blocksize B B' T T' : ℕ} (hB : B < B') (hT : T < T') :
    rate blocksize B B' T T' = ((B' : ℚ) - B) * blocksize * 1000 / ((T' : ℚ) - T) :=
  if_pos ⟨hB, hT⟩

theorem rate_of_not_lt {blocksize B B' T T' : ℕ} (h : ¬ (B < B' ∧ T < T')) :
    rate blocksize B B' T T' = 0 := if_neg h

/-- The rate is in bytes when blocks are sectors, or when there are none. -/
theorem rate_eq_bytes_iff {blocksize B B' T T' : ℕ} (hB : B ≤ B') (hT : T < T') :
    rate blocksize B B' T T' = ((B' : ℚ) - B) * 512 * 1000 / ((T' : ℚ) - T) ↔
      blocksize = 512 ∨ B = B' := by
  rcases hB.eq_or_lt with rfl | hB
  · rw [rate_of_not_lt (by omega)]
    simp
  · have hb : (B' : ℚ) - B ≠ 0 := by
      rw [sub_ne_zero]
      exact_mod_cast hB.ne'
    have ht : (T' : ℚ) - T ≠ 0 := by
      rw [sub_ne_zero]
      exact_mod_cast hT.ne'
    rw [rate_of_lt hB hT, div_left_inj' ht, mul_left_inj' (by norm_num), mul_right_inj' hb]
    constructor
    · intro hsize
      left
      exact_mod_cast hsize
    · rintro (hsize | hsame)
      · exact_mod_cast hsize
      · exact absurd hsame hB.ne

/-- A rate from zero is the rate from a later point when the point is on the way: the blocks and
the milliseconds have grown in one proportion. -/
theorem rate_zero_eq_iff {blocksize B B' T T' : ℕ} (hB : B ≤ B') (hT : T ≤ T') :
    rate blocksize 0 B' 0 T' = rate blocksize B B' T T' ↔
      blocksize = 0 ∨ B' = 0 ∨ T' = 0 ∨ (B < B' ∧ T < T' ∧ B * T' = B' * T) := by
  by_cases hnone : blocksize = 0 ∨ B' = 0 ∨ T' = 0
  · refine iff_of_true ?_ (by tauto)
    rcases hnone with rfl | rfl | rfl
    · simp [rate]
    · rw [rate_of_not_lt (by omega), rate_of_not_lt (by omega)]
    · rw [rate_of_not_lt (by omega), rate_of_not_lt (by omega)]
  · obtain ⟨hsize, hblocks, htime⟩ : blocksize ≠ 0 ∧ B' ≠ 0 ∧ T' ≠ 0 := by tauto
    have hs : (0 : ℚ) < blocksize := by exact_mod_cast Nat.pos_of_ne_zero hsize
    have hb : (0 : ℚ) < B' := by exact_mod_cast Nat.pos_of_ne_zero hblocks
    have ht : (0 : ℚ) < T' := by exact_mod_cast Nat.pos_of_ne_zero htime
    rw [rate_of_lt (Nat.pos_of_ne_zero hblocks) (Nat.pos_of_ne_zero htime)]
    by_cases hgrow : B < B' ∧ T < T'
    · obtain ⟨hB', hT'⟩ := hgrow
      have hdt : (T' : ℚ) - T ≠ 0 := by
        rw [sub_ne_zero]
        exact_mod_cast hT'.ne'
      have hcond : (blocksize = 0 ∨ B' = 0 ∨ T' = 0 ∨ (B < B' ∧ T < T' ∧ B * T' = B' * T)) ↔
          (B : ℚ) * T' = B' * T := by
        simp only [hsize, hblocks, htime, hB', hT', false_or, true_and]
        exact_mod_cast Iff.rfl
      rw [hcond, rate_of_lt hB' hT', Nat.cast_zero, sub_zero, sub_zero,
        div_eq_div_iff ht.ne' hdt]
      -- cross-multiplied, both sides are the block size and the 1000 times something
      have hscale : (blocksize : ℚ) * 1000 ≠ 0 := by positivity
      constructor
      · intro hrates
        have hprod : (blocksize : ℚ) * 1000 * (B * T') = blocksize * 1000 * (B' * T) := by
          linarith
        exact mul_left_cancel₀ hscale hprod
      · intro hcross
        have hprod : (blocksize : ℚ) * 1000 * (B * T') = blocksize * 1000 * (B' * T) := by
          rw [hcross]
        linarith
    · rw [rate_of_not_lt hgrow]
      refine iff_of_false ?_ (by tauto)
      positivity

/-- A rate is the one in sectors, scaled by the size of a block. -/
theorem rate_eq_mul (blocksize B B' T T' : ℕ) :
    rate blocksize B B' T T' = blocksize / 512 * rate 512 B B' T T' := by
  by_cases hgrow : B < B' ∧ T < T'
  · rw [rate_of_lt hgrow.1 hgrow.2, rate_of_lt hgrow.1 hgrow.2]
    push_cast
    ring
  · rw [rate_of_not_lt hgrow, rate_of_not_lt hgrow, mul_zero]

/-- A rate of blocks from zero, over `t` milliseconds, against the rate of sectors since some point:
the products are the same, or nothing is shown in either. -/
def SameRate (blocksize B B' t T T' : ℕ) : Prop :=
  if B < B' ∧ T < T' then 0 < t ∧ blocksize * B' * (T' - T) = 512 * (B' - B) * t
  else blocksize = 0 ∨ B' = 0 ∨ t = 0

theorem rate_zero_eq_zero_iff {blocksize B' t : ℕ} :
    rate blocksize 0 B' 0 t = 0 ↔ blocksize = 0 ∨ B' = 0 ∨ t = 0 := by
  by_cases hgrow : 0 < B' ∧ 0 < t
  · obtain ⟨hB, ht⟩ := hgrow
    have hb : (B' : ℚ) ≠ 0 := by exact_mod_cast hB.ne'
    have hd : (t : ℚ) ≠ 0 := by exact_mod_cast ht.ne'
    rw [rate_of_lt hB ht]
    simp [hb, hd, hB.ne', ht.ne']
  · rw [rate_of_not_lt hgrow]
    exact iff_of_true rfl (by omega)

theorem rate_zero_eq_sectors_iff {blocksize B B' t T T' : ℕ} :
    rate blocksize 0 B' 0 t = rate 512 B B' T T' ↔ SameRate blocksize B B' t T T' := by
  unfold SameRate
  by_cases hgrow : B < B' ∧ T < T'
  · obtain ⟨hB, hT⟩ := hgrow
    have hb : (0 : ℚ) < (B' - B : ℕ) := by exact_mod_cast Nat.sub_pos_of_lt hB
    have hdt : (0 : ℚ) < (T' - T : ℕ) := by exact_mod_cast Nat.sub_pos_of_lt hT
    rw [if_pos ⟨hB, hT⟩, rate_of_lt hB hT, ← Nat.cast_sub hB.le, ← Nat.cast_sub hT.le]
    rcases Nat.eq_zero_or_pos t with rfl | ht
    -- without a millisecond there is no speed, but there is a rate
    · rw [rate_of_not_lt (by omega)]
      apply iff_of_false _ (by omega)
      positivity
    · have hd : (0 : ℚ) < t := by exact_mod_cast ht
      rw [rate_of_lt (by omega) ht, Nat.cast_zero, sub_zero, sub_zero,
        div_eq_div_iff hd.ne' hdt.ne', and_iff_right ht, ← Nat.cast_inj (R := ℚ)]
      push_cast
      constructor
      · intro hrates
        linarith
      · intro hcross
        linarith
  · rw [if_neg hgrow, rate_of_not_lt hgrow]
    exact rate_zero_eq_zero_iff

/-! ## The factor -/

theorem ofStat_blocksize {h : Host} {stat : Stat} {d : Data} (hd : ofStat h stat = .ok d) :
    stat.blocksize h = .ok d.blocksize := by
  obtain ⟨n, hn, rfl⟩ := ofStat_eq_ok_iff.mp hd
  exact hn

/-- **When a speed is in bytes per second**: on disks with logical blocks of 512 bytes, and
otherwise only while nothing is transferred. -/
theorem speed_in_bytes_iff (h : Host) (stat : Stat) (d : Data) (hd : ofStat h stat = .ok d) (n : ℕ)
    (hn : stat.blocksize h = .ok n) (rs : List (Except Exception Stat)) (s s' : Stat)
    (hlast : (successes rs).getLast? = some s) (dir : Direction) (T T' : ℕ)
    (hT : (s.transfer dir).time.toNat = T % 2 ^ 32)
    (hT' : (s'.transfer dir).time.toNat = T' % 2 ^ 32) (hlt : T < T') (hwrap : T' - T < 2 ^ 32)
    (hblocks : (s.transfer dir).blocks ≤ (s'.transfer dir).blocks) :
    (d.run (rs ++ [.ok s'])).speed dir =
        .fin ((((s'.transfer dir).blocks.toNat : ℚ) - (s.transfer dir).blocks.toNat) * 512 * 1000 /
          ((T' : ℚ) - T)) ↔
      n = 512 ∨ (s.transfer dir).blocks = (s'.transfer dir).blocks := by
  obtain rfl : n = d.blocksize := Except.ok.inj (hn.symm.trans (ofStat_blocksize hd))
  rw [speed_run_rate hlast hT hT' hlt.le hwrap, ExactFloat.fin.injEq, ← UInt64.toNat_inj]
  exact rate_eq_bytes_iff (UInt64.le_iff_toNat_le.mp hblocks) hlt

/-! ## The first difference -/

theorem run_of_no_success {d : Data} {rs : List (Except Exception Stat)}
    (hnone : successes rs = []) : d.run rs = d := by
  induction rs using List.reverseRecOn with
  | nil => rfl
  | append_singleton rs r ih =>
    rw [run_concat]
    cases r with
    | error e =>
      rw [successes_concat_error] at hnone
      rw [attempt_error, ih hnone]
    | ok s =>
      rw [successes_concat_ok] at hnone
      simp at hnone

theorem ofStat_last {h : Host} {stat : Stat} {d : Data} (hd : ofStat h stat = .ok d)
    (dir : Direction) : d.last dir = {} := by
  obtain ⟨n, -, rfl⟩ := ofStat_eq_ok_iff.mp hd
  cases dir <;> rfl

/-- The first speed of a disk is the rate since its counters were zero. -/
theorem speed_run_first {h : Host} {stat s' : Stat} {d : Data} (hd : ofStat h stat = .ok d)
    {rs : List (Except Exception Stat)} (hnone : successes rs = []) (dir : Direction) :
    (d.run (rs ++ [.ok s'])).speed dir =
      .fin (rate d.blocksize 0 (s'.transfer dir).blocks.toNat 0 (s'.transfer dir).time.toNat) := by
  have hempty : ({} : Saved) = sampled d.blocksize {} := by
    simp [sampled]
  have htime : (s'.transfer dir).time.toNat < 2 ^ 32 := UInt32.toNat_lt _
  rw [run_concat, run_of_no_success hnone, attempt_ok_speed, ofStat_last hd, hempty]
  exact speedSince_sampled rfl (Nat.mod_eq_of_lt htime).symm (Nat.zero_le _) htime

end Data

/-- The counters of a direction have grown since the insertion as they had before it, or have never
counted anything. -/
def Steady (d : Data) (t t' : Transfer) : Prop :=
  d.blocksize = 0 ∨ t'.blocks = 0 ∨ t'.time = 0 ∨
    (t.blocks < t'.blocks ∧ t.time < t'.time ∧
      t.blocks.toNat * t'.time.toNat = t'.blocks.toNat * t.time.toNat)

/-- **When the first speed is that since the insertion**: when the counters were zero then, or grow
in one proportion before and after. -/
theorem speed_since_insertion_iff {τ : Type} (same : DecEquiv String) (h : Host) (s : Stat)
    (c c' : Controller τ) (hpush : (Controller.pushBack same h s).run c = .ok true c') :
    ∃ d, c'.disks = c.disks ++ [d] ∧
      ∀ rs s', Data.successes rs = [] →
        (∀ dir, (s.transfer dir).blocks ≤ (s'.transfer dir).blocks ∧
          (s.transfer dir).time ≤ (s'.transfer dir).time) →
        ((∀ dir, (d.run (rs ++ [.ok s'])).speed dir =
            .fin (Data.rate d.blocksize (s.transfer dir).blocks.toNat
              (s'.transfer dir).blocks.toNat (s.transfer dir).time.toNat
              (s'.transfer dir).time.toNat)) ↔
          ∀ dir, Steady d (s.transfer dir) (s'.transfer dir)) := by
  obtain ⟨d, hd, hdisks⟩ := Controller.ofStat_of_pushBack_true hpush
  refine ⟨d, hdisks, ?_⟩
  intro rs s' hnone hgrown
  apply forall_congr'
  intro dir
  obtain ⟨hblocks, htime⟩ := hgrown dir
  rw [Data.speed_run_first hd hnone, ExactFloat.fin.injEq,
    Data.rate_zero_eq_iff (UInt64.le_iff_toNat_le.mp hblocks) (UInt32.le_iff_toNat_le.mp htime)]
  simp only [Steady, ← UInt64.toNat_inj, ← UInt32.toNat_inj, UInt64.lt_iff_toNat_lt,
    UInt32.lt_iff_toNat_lt]
  rfl

/-- A disk as a machine has it that has been up for a while. -/
def busy : Stat where
  device := "sda"
  read := { blocks := 1000, time := 500 }

/-- And a little later: 2000 sectors more in 200 ms. -/
def busyLater : Stat where
  device := "sda"
  read := { blocks := 3000, time := 700 }

/-- A machine on which every disk has logical blocks of this size. -/
def withBlocks (blocksize : ℕ) : Host where
  __ := Host.bare
  openDevice _ := .ok ()
  blksszget _ := .ok blocksize

theorem speed_in_bytes_busy :
    (({ device := "sda", blocksize := 512 } : Data).run ([.ok busy] ++
      [.ok busyLater])).speed .read =
        .fin (((3000 : ℕ) - (1000 : ℕ)) * 512 * 1000 / ((700 : ℕ) - (500 : ℕ))) :=
  (Data.speed_in_bytes_iff (withBlocks 512) busy { device := "sda", blocksize := 512 } rfl 512 rfl
    [.ok busy] busy busyLater rfl .read 500 700 rfl rfl (by decide) (by decide) (by decide)).mpr
      (Or.inl rfl)

/-- On blocks of 4096 bytes the same sectors make eight times the speed. -/
theorem not_speed_in_bytes_busy :
    Data.ofStat (withBlocks 4096) busy = .ok { device := "sda", blocksize := 4096 } ∧
      (({ device := "sda", blocksize := 4096 } : Data).run ([.ok busy] ++
        [.ok busyLater])).speed .read ≠
          .fin (((3000 : ℚ) - 1000) * 512 * 1000 / ((700 : ℚ) - 500)) := by
  refine ⟨rfl, ?_⟩
  have hlast : (Data.successes [.ok busy]).getLast? = some busy := rfl
  have hT : (busy.transfer .read).time.toNat = 500 % 2 ^ 32 := rfl
  have hT' : (busyLater.transfer .read).time.toNat = 700 % 2 ^ 32 := rfl
  rw [Data.speed_run_rate hlast hT hT' (by omega) (by omega)]
  norm_num [Data.rate, Stat.transfer, busy, busyLater, UInt64.toNat_ofNat]

/-- The disk as it is inserted. -/
def inserted : Data where
  device := "sda"
  blocksize := 512

theorem pushBack_busy :
    (Controller.pushBack (DecEquiv.eq String) (withBlocks 512) busy).run { timer := () } =
      .ok true { disks := [inserted], timer := () } := rfl

theorem speed_since_insertion_busy :
    ∃ d, [inserted] = [] ++ [d] ∧
      ∀ rs s', Data.successes rs = [] →
        (∀ dir, (busy.transfer dir).blocks ≤ (s'.transfer dir).blocks ∧
          (busy.transfer dir).time ≤ (s'.transfer dir).time) →
        ((∀ dir, (d.run (rs ++ [.ok s'])).speed dir =
            .fin (Data.rate d.blocksize (busy.transfer dir).blocks.toNat
              (s'.transfer dir).blocks.toNat (busy.transfer dir).time.toNat
              (s'.transfer dir).time.toNat)) ↔
          ∀ dir, Steady d (busy.transfer dir) (s'.transfer dir)) :=
  speed_since_insertion_iff (DecEquiv.eq String) (withBlocks 512) busy { timer := () } _
    pushBack_busy

/-- Nothing is read after the insertion, and the first speed is a megabyte per second. -/
theorem not_speed_since_insertion_busy :
    (Controller.pushBack (DecEquiv.eq String) (withBlocks 512) busy).run { timer := () } =
        .ok true { disks := [inserted], timer := () } ∧
      (inserted.run [.ok busy]).speed .read ≠ .fin (Data.rate 512 1000 1000 500 500) := by
  refine ⟨pushBack_busy, ?_⟩
  have hinserted : Data.ofStat (withBlocks 512) busy = .ok inserted := rfl
  show (inserted.run ([] ++ [.ok busy])).speed .read ≠ _
  rw [Data.speed_run_first hinserted rfl]
  norm_num [Data.rate, Stat.transfer, busy, inserted, UInt64.toNat_ofNat, UInt32.toNat_ofNat]

end SysInfo.Storage
