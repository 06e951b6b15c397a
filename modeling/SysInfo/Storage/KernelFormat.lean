import SysInfo.Storage.DiskStats

/-!
# The texts the kernel writes, and what the two readers make of them

    Record ──line────▶ a line of /proc/diskstats      ──parse──▶ Stat
       └─────statText▶ the text of /sys/block/…/stat  ──load───▶ Stat

The writer on the left is the kernel's: `"%4d %7d %s %lu …"` for the line, `"%8lu …"` for the
text, both with the same numbers in the same order. `parse` undoes `line` for every record
(`get_decodes_diskstats`). `load` skips a word before it scans, which is harmless only while the
first number is short enough to be padded (`load_agrees_iff`).
-/

namespace SysInfo.Storage

open Lib.CScan Lib.CString

/-- What the kernel knows of one block device. `more` are the counters newer kernels have behind
the fifteen the library reads. -/
structure Record where
  major : ℕ
  major_lt : major < 512
  minor : ℕ
  minor_lt : minor < 2 ^ 20
  name : String
  name_ne : name ≠ ""
  name_word : ∀ c ∈ name.toList, isspace c = false ∧ c.toNat ≠ 0
  counter : Counter → ℕ
  counter_lt : ∀ k, counter k < 2 ^ k.width
  more : List ℕ

namespace Record

/-- All the numbers of a device, in the order both texts have them. -/
def numbers (r : Record) : List ℕ := Counter.all.map r.counter ++ r.more

/-- The characters of the line in `/proc/diskstats`. -/
def lineChars (r : Record) : List Char :=
  padded 4 r.major ++ ' ' ::
    (padded 7 r.minor ++ ' ' :: (r.name.toList ++ ' ' :: spaced 0 r.numbers))

/-- The line in `/proc/diskstats`. -/
def line (r : Record) : String := String.ofList r.lineChars

/-- The content of `/sys/block/<name>/stat`. -/
def statText (r : Record) : String := String.ofList (spaced 8 r.numbers ++ ['\n'])

/-- The object a line stands for. -/
def stat (r : Record) : Stat :=
  Stat.storeAll { device := r.name, major := .ofNat r.major, minor := .ofNat r.minor }
    (Counter.all.zip (Counter.all.map r.counter))

/-! ## The numbers -/

/-- The conversion that reads a counter. -/
def conv : Counter → Conv
  | .readTime | .writeTime | .ioInprogress | .ioTime | .ioWeighted => .u
  | _ => .lu

theorem statFormat_eq : statFormat = Counter.all.map conv := rfl

theorem width_conv (k : Counter) : (conv k).width = k.width := by cases k <;> rfl

theorem numbers_length (r : Record) : r.numbers.length = 15 + r.more.length := by
  rw [numbers, List.length_append, List.length_map]
  rfl

theorem numbers_eq_cons (r : Record) :
    r.numbers = r.counter .readCount :: r.numbers.tail := by
  simp [numbers, Counter.all]

/-- Fifteen conversions over the numbers of a device give its counters. -/
theorem values_numbers (r : Record) :
    List.zipWith (fun c n => c.value (false, n)) statFormat r.numbers =
      Counter.all.map r.counter := by
  have hval : ∀ k, (conv k).value (false, r.counter k) = r.counter k := by
    intro k
    apply Conv.value_of_lt
    rw [width_conv]
    exact r.counter_lt k
  have hsplit : List.zipWith (fun c n => c.value (false, n)) statFormat r.numbers =
      List.zipWith (fun c n => c.value (false, n)) (Counter.all.map conv)
        (Counter.all.map r.counter) := by
    conv_lhs => rw [statFormat_eq, numbers, ← List.append_nil (Counter.all.map conv)]
    rw [List.zipWith_append (by simp)]
    simp
  rw [hsplit, List.zipWith_map, List.zipWith_self]
  exact List.map_congr_left (fun k _ => hval k)

/-- Storing a list of values, one for each counter. -/
theorem counter_storeAll_map (f : Counter → ℕ) (st : Stat) (k : Counter) :
    (st.storeAll (Counter.all.zip (Counter.all.map f))).counter k = f k % 2 ^ k.width := by
  rw [← List.map_prod_left_eq_zip]
  apply Stat.counter_storeAll _ (List.mem_map.mpr ⟨k, k.mem_all, rfl⟩) st
  rw [List.map_map]
  exact (List.map_id Counter.all).symm ▸ Counter.nodup_all

theorem counter_storeAll_numbers (r : Record) (st : Stat) (k : Counter) :
    (st.storeAll (Counter.all.zip (Counter.all.map r.counter))).counter k = r.counter k := by
  rw [counter_storeAll_map, Nat.mod_eq_of_lt (r.counter_lt k)]

@[simp] theorem stat_counter (r : Record) (k : Counter) : r.stat.counter k = r.counter k :=
  r.counter_storeAll_numbers _ k

@[simp] theorem stat_device (r : Record) : r.stat.device = r.name := (Stat.identity_storeAll ..).1

@[simp] theorem stat_major (r : Record) : r.stat.major.toNat = r.major := by
  have h := r.major_lt
  rw [stat, (Stat.identity_storeAll ..).2.1]
  exact UInt16.toNat_ofNat_of_lt' (by simpa [UInt16.size] using h.trans (by decide))

@[simp] theorem stat_minor (r : Record) : r.stat.minor.toNat = r.minor % 65536 := by
  rw [stat, (Stat.identity_storeAll ..).2.2]
  exact UInt16.toNat_ofNat'

/-! ## Characters of the texts -/

theorem name_isspace (r : Record) {c : Char} (hc : c ∈ r.name.toList) : isspace c = false :=
  (r.name_word c hc).1

theorem name_eq_cons (r : Record) :
    ∃ c cs, r.name.toList = c :: cs ∧ isspace c = false := by
  cases h : r.name.toList with
  | nil => exact absurd (String.toList_eq_nil_iff.mp h) r.name_ne
  | cons c cs => exact ⟨c, cs, rfl, r.name_isspace (by rw [h]; simp)⟩

/-- The text behind the name: the counters, one space between them. -/
theorem spaced_numbers_eq_cons (r : Record) (w : ℕ) :
    spaced w r.numbers = margin w (r.counter .readCount) ++
      (decimal (r.counter .readCount) ++ (' ' :: spaced w r.numbers.tail)) := by
  have htail : r.numbers.tail ≠ [] := by simp [numbers, Counter.all]
  rw [r.numbers_eq_cons]
  cases ht : r.numbers.tail with
  | nil => exact absurd ht htail
  | cons m ns => rw [spaced_cons_cons]; simp

theorem spaced_zero_numbers_eq_cons (r : Record) :
    ∃ d ds, spaced 0 r.numbers = d :: ds ∧ isspace d = false := by
  obtain ⟨d, ds, hd, -, hsp⟩ := exists_decimal_eq_cons (r.counter .readCount)
  refine ⟨d, ds ++ ' ' :: spaced 0 r.numbers.tail, ?_, hsp⟩
  rw [spaced_numbers_eq_cons, hd]
  simp [margin]

theorem toNat_ne_zero_of_mem_spaced {w : ℕ} {ns : List ℕ} {c : Char} (hc : c ∈ spaced w ns) :
    c.toNat ≠ 0 := by
  rcases mem_spaced hc with rfl | hd
  · exact toNat_ne_zero_of_isspace isspace_space
  · exact toNat_ne_zero_of_isDigit hd

/-- Nothing in a line ends it early: no character of it is the NUL. -/
theorem cstr_line (r : Record) : cstr r.line = r.lineChars := by
  apply cstr_ofList
  intro c hc
  have hpad : ∀ w n, c ∈ padded w n → c.toNat ≠ 0 := by
    intro w n h
    have hcolumn : c ∈ spaced w [n] := by simpa [spaced] using h
    exact toNat_ne_zero_of_mem_spaced hcolumn
  -- along the line: the major number, the minor number, the name, the counters
  rcases List.mem_append.mp hc with hc | hc
  · exact hpad _ _ hc
  rcases List.mem_cons.mp hc with rfl | hc
  · decide
  rcases List.mem_append.mp hc with hc | hc
  · exact hpad _ _ hc
  rcases List.mem_cons.mp hc with rfl | hc
  · decide
  rcases List.mem_append.mp hc with hc | hc
  · exact (r.name_word c hc).2
  rcases List.mem_cons.mp hc with rfl | hc
  · decide
  · exact toNat_ne_zero_of_mem_spaced hc

/-- A numeral that fits becomes the number, whatever width it is then cut to. -/
theorem ofInt_atoi_decimal {n : ℕ} (hn : n < 2 ^ 31) {rest : List Char} (hr : NoDigit rest) :
    UInt16.ofInt (atoi (decimal n ++ rest)) = .ofNat n := by
  have h := atoi_decimal blank_nil hn hr
  rw [List.nil_append] at h
  rw [h, UInt16.ofInt, ← UInt16.toNat_inj]
  simp only [UInt16.toNat_ofNat']
  omega

/-! ## `parse` undoes `line` -/

/-- **A line is read back as its device**: the four pointers of `parse` stand at the major number,
the minor number, the name and the first counter. -/
theorem ofLine_line (r : Record) : Stat.ofLine r.line = .ok r.stat := by
  have hmaj : margin 4 r.major ≠ [] :=
    (margin_ne_nil_iff (by omega)).mpr (r.major_lt.trans (by omega))
  obtain ⟨c, cs, hname, hc⟩ := r.name_eq_cons
  obtain ⟨d, ds, hnum, hd⟩ := r.spaced_zero_numbers_eq_cons
  set p₄ := spaced 0 r.numbers with hp₄
  set p₃ := r.name.toList ++ ' ' :: p₄ with hp₃
  set p₂ := decimal r.minor ++ ' ' :: p₃ with hp₂
  set p₁ := decimal r.major ++ (' ' :: margin 7 r.minor ++ p₂) with hp₁
  have hline : r.lineChars = [] ++ margin 4 r.major ++ p₁ := by
    simp [lineChars, padded_eq, hp₁, hp₂, hp₃, ← hp₄]
  have h₁ : next r.lineChars = .ok p₁ := by
    rw [hline]
    exact next_decimal (by simp) (blank_margin 4 r.major) hmaj _ _
  have h₂ : next p₁ = .ok p₂ := by
    have hgap : Blank (' ' :: margin 7 r.minor) := (blank_replicate 1).append (blank_margin _ _)
    have h := next_decimal (fun _ => isspace_of_mem_decimal) hgap (List.cons_ne_nil _ _) r.minor
      (' ' :: p₃) (w := decimal r.major)
    simpa [hp₁] using h
  have h₃ : next p₂ = .ok p₃ := by
    have h := next_eq (fun _ => isspace_of_mem_decimal) (blank_replicate 1) (by simp) hc
      (cs ++ ' ' :: p₄) (w := decimal r.minor)
    simpa [hp₂, hp₃, hname] using h
  have h₄ : next p₃ = .ok p₄ := by
    have h := next_eq (fun _ => r.name_isspace) (blank_replicate 1) (by simp) hd ds
      (w := r.name.toList)
    rw [← hnum] at h
    simpa [hp₃] using h
  have hvals : sscanf statFormat p₄ = Counter.all.map r.counter := by
    have hlen : statFormat.length ≤ r.numbers.tail.length + 1 := by
      rw [List.length_tail, numbers_length]
      simp [statFormat]
    have h := sscanf_columns hlen 0 (blank_margin 0 (r.counter .readCount))
      (n := r.counter .readCount) (show NoDigit [] by simp [NoDigit])
    rw [List.append_nil, ← spaced_eq_layout, ← numbers_eq_cons, values_numbers] at h
    exact h
  have hdev : p₃.take (p₃.length - p₄.length - 1) = r.name.toList := by
    have hlen : p₃.length - p₄.length - 1 = r.name.toList.length := by
      simp only [hp₃, List.length_append, List.length_cons]
      omega
    rw [hlen, hp₃, List.take_left]
  have hmajor : UInt16.ofInt (atoi p₁) = .ofNat r.major :=
    ofInt_atoi_decimal (r.major_lt.trans (by omega)) (by simp [NoDigit])
  have hminor : UInt16.ofInt (atoi p₂) = .ofNat r.minor :=
    ofInt_atoi_decimal (r.minor_lt.trans (by omega)) (by simp [NoDigit])
  have hrun : (parse r.lineChars).run {} = _ :=
    parse_run h₁ h₂ h₃ h₄ (by rw [hvals]; simp [Counter.all])
  rw [Stat.ofLine, cstr_line, hrun, hvals, hdev, hmajor, hminor]
  rw [String.ofList_toList]
  rfl

theorem line_ne (r : Record) : r.line ≠ "" := by
  intro h
  have hchars : r.lineChars = [] := by
    have := congrArg String.toList h
    simpa [line] using this
  simp [lineChars] at hchars

theorem mapM_ofLine (rs : List Record) :
    (rs.map line).mapM Stat.ofLine = .ok (rs.map stat) := by
  induction rs with
  | nil => rfl
  | cons r rs ih =>
    rw [List.map_cons, List.mapM_cons, ofLine_line, ih]
    rfl

end Record

/-- An `sda` with this many reads behind it, the other counters at 7. -/
def sda (reads : UInt64) : Record where
  major := 8
  major_lt := by omega
  minor := 0
  minor_lt := by omega
  name := "sda"
  name_ne := by decide
  name_word := by simp [isspace]
  counter k := if k = .readCount then reads.toNat else 7
  counter_lt k := by cases k <;> first | exact reads.toNat_lt | simp [Counter.width]
  more := [0, 0]

/-- The non-empty lines of the file are the lines of these devices, in order. -/
def Listing (rs : List Record) (lines : List String) : Prop :=
  lines.filter (· ≠ "") = rs.map Record.line

theorem get_listing {h : Host} {rs : List Record} {lines : List String}
    (hfile : h.lines "/proc/diskstats" = .ok lines) (hlist : Listing rs lines) :
    Stat.get h = .ok (rs.map Record.stat) := by
  have hmap : (lines.filter (· ≠ "")).mapM Stat.ofLine = .ok (rs.map Record.stat) := by
    rw [hlist, Record.mapM_ofLine]
  rw [Stat.get, hfile]
  exact hmap

/-- **`get` undoes the kernel's encoding**: one object for each device, in the order of the file,
with the numbers and the name of the device, however the empty lines are spread. -/
theorem get_decodes_diskstats (h : Host) (rs : List Record) (lines : List String)
    (hminor : ∀ r ∈ rs, r.minor < 65536) (hfile : h.lines "/proc/diskstats" = .ok lines)
    (hlist : Listing rs lines) :
    ∃ stats, Stat.get h = .ok stats ∧
      List.Forall₂ (fun r st => st.major.toNat = r.major ∧ st.minor.toNat = r.minor ∧
        st.device = r.name ∧ ∀ k, st.counter k = r.counter k) rs stats := by
  refine ⟨rs.map Record.stat, get_listing hfile hlist, ?_⟩
  rw [List.forall₂_map_right_iff, List.forall₂_same]
  intro r hr
  refine ⟨r.stat_major, ?_, r.stat_device, r.stat_counter⟩
  rw [r.stat_minor, Nat.mod_eq_of_lt (hminor r hr)]

theorem get_decodes_diskstats_sda :
    ∃ stats, Stat.get { Host.bare with lines := fun _ => .ok ["", (sda 12).line, ""] } =
        .ok stats ∧
      List.Forall₂ (fun r st => st.major.toNat = r.major ∧ st.minor.toNat = r.minor ∧
        st.device = r.name ∧ ∀ k, st.counter k = r.counter k) [sda 12] stats := by
  refine get_decodes_diskstats _ _ ["", (sda 12).line, ""] ?_ rfl ?_
  · simp [sda]
  · simp [Listing, (sda 12).line_ne]

/-! ## `load`, and the number it may step over -/

namespace Record

/-- The number the kernel writes behind a counter. -/
def following (r : Record) (k : Counter) : ℕ := r.numbers.getD (Counter.all.idxOf k + 1) 0

/-- Fifteen conversions that start one number late. -/
theorem values_numbers_tail (r : Record) (hmore : r.more.length = 2) :
    List.zipWith (fun c n => c.value (false, n)) statFormat r.numbers.tail =
      Counter.all.map (fun k => (conv k).value (false, r.following k)) := by
  match hm : r.more with
  | [flushes, flushTime] =>
    simp [numbers, hm, following, Counter.all, statFormat, conv]
  | [] | [_] | _ :: _ :: _ :: _ => simp [hm] at hmore

theorem cstr_statText (r : Record) : cstr r.statText = spaced 8 r.numbers ++ ['\n'] := by
  apply cstr_ofList
  intro c hc
  rcases List.mem_append.mp hc with hc | hc
  · exact toNat_ne_zero_of_mem_spaced hc
  · rw [List.mem_singleton.mp hc]
    decide

theorem noDigit_newline : NoDigit ['\n'] := by simp [NoDigit]

/-- A first number of up to seven digits is padded, and `next` stops in front of it. -/
theorem next_statText_of_lt (r : Record) (hlt : r.counter .readCount < 10 ^ 7) :
    next (cstr r.statText) =
      .ok (layout (columns 8 [] (r.counter .readCount) r.numbers.tail) ++ ['\n']) := by
  have hne : margin 8 (r.counter .readCount) ≠ [] := (margin_ne_nil_iff (by omega)).mpr hlt
  have h := next_decimal (by simp) (blank_margin 8 _) hne (r.counter .readCount)
    (layout (r.numbers.tail.map (fun n => (' ' :: margin 8 n, n))) ++ ['\n']) (w := [])
  rw [cstr_statText, numbers_eq_cons, spaced_eq_layout]
  simpa [columns, layout_cons] using h

/-- A longer one fills its column, and `next` takes it for the word to skip. -/
theorem next_statText_of_le (r : Record) (hle : 10 ^ 7 ≤ r.counter .readCount) {m : ℕ} {ns : List ℕ}
    (htail : r.numbers.tail = m :: ns) :
    next (cstr r.statText) = .ok (layout (columns 8 [] m ns) ++ ['\n']) := by
  have hnil : margin 8 (r.counter .readCount) = [] := by
    by_contra hne
    exact absurd ((margin_ne_nil_iff (by omega)).mp hne) (by omega)
  have hgap : Blank (' ' :: margin 8 m) := (blank_replicate 1).append (blank_margin 8 m)
  have h := next_decimal (fun _ => isspace_of_mem_decimal) hgap (List.cons_ne_nil _ _) m
    (layout (ns.map (fun n => (' ' :: margin 8 n, n))) ++ ['\n'])
    (w := decimal (r.counter .readCount))
  rw [cstr_statText, numbers_eq_cons, htail, spaced_eq_layout, hnil]
  simpa [columns, layout_cons] using h

/-- Where the object is loaded from, for the disk it names. -/
def ServedBy (h : Host) (st : Stat) (r : Record) : Prop :=
  st.device ≠ "" ∧ h.text ("/sys/block/" ++ st.device ++ "/stat") = .ok r.statText

theorem load_of_lt {h : Host} {st : Stat} {r : Record} (hs : ServedBy h st r)
    (hlt : r.counter .readCount < 10 ^ 7) :
    (Stat.load h).run st =
      .ok () (st.storeAll (Counter.all.zip (Counter.all.map r.counter))) := by
  have hlen : statFormat.length ≤ r.numbers.tail.length + 1 := by
    rw [List.length_tail, numbers_length]
    simp [statFormat]
  have hvals : sscanf statFormat (layout (columns 8 [] (r.counter .readCount) r.numbers.tail) ++
      ['\n']) = Counter.all.map r.counter := by
    rw [sscanf_columns hlen 8 blank_nil noDigit_newline, ← numbers_eq_cons, values_numbers]
  rw [load_run hs.1 hs.2 (r.next_statText_of_lt hlt) (by rw [hvals]; simp [Counter.all]), hvals]

/-- **The shift.** Once the first number fills its column, every counter is given the number that
follows its own. -/
theorem load_of_le {h : Host} {st : Stat} {r : Record} (hs : ServedBy h st r)
    (hmore : r.more.length = 2) (hle : 10 ^ 7 ≤ r.counter .readCount) :
    (Stat.load h).run st = .ok () (st.storeAll (Counter.all.zip
      (Counter.all.map (fun k => (conv k).value (false, r.following k))))) := by
  obtain ⟨m, ns, htail⟩ : ∃ m ns, r.numbers.tail = m :: ns := by simp [numbers, Counter.all]
  have hlen : statFormat.length ≤ ns.length + 1 := by
    have h := r.numbers_length
    rw [numbers_eq_cons, htail, hmore] at h
    simp only [List.length_cons] at h
    simp only [statFormat, List.length_cons, List.length_nil]
    omega
  have hvals : sscanf statFormat (layout (columns 8 [] m ns) ++ ['\n']) =
      Counter.all.map (fun k => (conv k).value (false, r.following k)) := by
    rw [sscanf_columns hlen 8 blank_nil noDigit_newline, ← htail, r.values_numbers_tail hmore]
  have hcount : (sscanf statFormat (layout (columns 8 [] m ns) ++ ['\n'])).length = 15 := by
    rw [hvals]
    simp [Counter.all]
  rw [load_run hs.1 hs.2 (r.next_statText_of_le hle htail) hcount, hvals]

end Record

/-- Both readers succeed on the texts of the device and have its fifteen counters. -/
def ReadersAgree (h : Host) (st : Stat) (r : Record) : Prop :=
  ∃ loaded parsed, (Stat.load h).run st = .ok () loaded ∧ Stat.ofLine r.line = .ok parsed ∧
    ∀ k, loaded.counter k = parsed.counter k ∧ parsed.counter k = r.counter k

/-- **Where the two readers agree**: while the count of reads has at most seven digits, and beyond
that only when the shift cannot be seen, every number of the text being equal to the one in front
of it as far as the field in front goes. -/
theorem load_agrees_iff (h : Host) (st : Stat) (r : Record) (hmore : r.more.length = 2)
    (hs : Record.ServedBy h st r) :
    ReadersAgree h st r ↔
      r.counter .readCount < 10 ^ 7 ∨
        ∀ k, (Record.conv k).value (false, r.following k) = r.counter k := by
  have hparse : Stat.ofLine r.line = .ok r.stat := r.ofLine_line
  by_cases hlt : r.counter .readCount < 10 ^ 7
  · refine iff_of_true ⟨_, r.stat, Record.load_of_lt hs hlt, hparse, fun k => ?_⟩ (Or.inl hlt)
    rw [Record.counter_storeAll_numbers, r.stat_counter]
    exact ⟨rfl, rfl⟩
  · have hload := Record.load_of_le hs hmore (Nat.le_of_not_lt hlt)
    have hcut : ∀ k, (Record.conv k).value (false, r.following k) % 2 ^ k.width =
        (Record.conv k).value (false, r.following k) := by
      intro k
      rw [Conv.value, Record.width_conv, Nat.mod_mod]
    constructor
    · rintro ⟨loaded, parsed, hl, hp, hk⟩
      rw [hload] at hl
      injection hl with _ hl
      right
      intro k
      rw [← (hk k).2, ← (hk k).1, ← hl, Record.counter_storeAll_map, hcut]
    · intro hcond
      have hshift := hcond.resolve_left hlt
      refine ⟨_, r.stat, hload, hparse, fun k => ?_⟩
      rw [Record.counter_storeAll_map, hcut, hshift, r.stat_counter]
      exact ⟨rfl, rfl⟩

theorem load_agrees_sda :
    ReadersAgree { Host.bare with text := fun _ => .ok (sda 9999999).statText }
      { device := "sda" } (sda 9999999) :=
  (load_agrees_iff _ _ _ rfl ⟨by decide, rfl⟩).mpr (Or.inl (by decide))

/-- One read more, and the count of reads is lost: `load` has 7 of them. -/
theorem not_readersAgree_sda :
    ¬ ReadersAgree { Host.bare with text := fun _ => .ok (sda 10000000).statText }
      { device := "sda" } (sda 10000000) := by
  rintro ⟨loaded, parsed, hl, hp, hk⟩
  have hserved : Record.ServedBy
      { Host.bare with text := fun _ => .ok (sda 10000000).statText }
      { device := "sda" } (sda 10000000) := ⟨by decide, rfl⟩
  have hload := Record.load_of_le hserved rfl (by decide)
  rw [hload] at hl
  injection hl with _ hl
  have hcount := (hk .readCount).1.trans (hk .readCount).2
  rw [← hl, Record.counter_storeAll_map] at hcount
  exact absurd hcount (by decide)

end SysInfo.Storage
