import SysInfo.Lib.CScan
import SysInfo.Lib.Failure
import SysInfo.Storage.Stat

/-!
# Reading the counters: `/proc/diskstats` and `/sys/block/<name>/stat`

The two readers of `os/linux/diskstats.cc`, statement by statement. A pointer into a text is the
list of characters from there to the NUL; a method that may throw half-way is an `EStateM` over the
object, because the object keeps what was stored before the throw.
-/

namespace SysInfo.Storage

open Lib.CScan Lib.CString

/-- The error both loops of `next` end with. -/
def unexpectedFormat : Exception :=
  .systemError EINVAL (some "Unexpected format in /proc/diskstats")

/-- The first loop of `next`: `while(!isspace(*ptr)) { ptr++; if(!*ptr) throw }`. -/
def skipWord : List Char → Except Fault (List Char)
  | [] => .error .overrun   -- the NUL is no space: `ptr` moves behind it
  | c :: cs =>
    if isspace c then .ok (c :: cs)
    else if cs = [] then .error (.throw unexpectedFormat)
    else skipWord cs

/-- The second loop of `next`: `while(isspace(*ptr)) { ptr++; if(!*ptr) throw }`. -/
def skipBlank : List Char → Except Fault (List Char)
  | [] => .ok []
  | c :: cs =>
    if isspace c then if cs = [] then .error (.throw unexpectedFormat) else skipBlank cs
    else .ok (c :: cs)

/-- `next`: behind the current word and the white space that follows it. -/
def next (ptr : List Char) : Except Fault (List Char) := do
  let ptr ← skipWord ptr
  skipBlank ptr

/-- The format of both `sscanf` calls. -/
def statFormat : List Conv :=
  [.lu, .lu, .lu, .u, .lu, .lu, .lu, .u, .u, .u, .u, .lu, .lu, .lu, .lu]

/-- The `sscanf` call: stores the counters it converts, returns how many. -/
def scanCounters (ptr : List Char) : EStateM Fault Stat ℕ := do
  let values := sscanf statFormat ptr
  modify fun st => st.storeAll (Counter.all.zip values)
  return values.length

/-- `parse(st,ptr)`: a line of `/proc/diskstats`. -/
def parse (ptr : List Char) : EStateM Fault Stat Unit := do
  let ptr ← ofExcept (next ptr)
  modify fun st => { st with major := .ofInt (atoi ptr) }
  let ptr ← ofExcept (next ptr)
  modify fun st => { st with minor := .ofInt (atoi ptr) }
  let start ← ofExcept (next ptr)
  let ptr ← ofExcept (next start)
  modify fun st => { st with device := String.ofList (start.take (start.length - ptr.length - 1)) }
  let sz ← scanCounters ptr
  if sz ≠ 15 then
    throw (.throw unexpectedFormat)

namespace Stat

/-- A line of `/proc/diskstats` read into a new object. -/
def ofLine (line : String) : Except Fault Stat :=
  match (parse (cstr line)).run {} with
  | .ok _ st => .ok st
  | .error e _ => .error e

/-- `Storage::Stat::get()`. -/
def get (h : Host) : Except Fault (List Stat) := do
  let lines ← rethrow (h.lines "/proc/diskstats")
  (lines.filter (· ≠ "")).mapM ofLine

/-- `load()`. -/
def load (h : Host) : EStateM Fault Stat Unit := do
  let st ← MonadState.get
  if st.device = "" then
    throw (.throw (.systemError EINVAL (some "Invalid disk name")))
  let proc ← ofExcept (rethrow (h.text ("/sys/block/" ++ st.device ++ "/stat")))
  let ptr ← ofExcept (next (cstr proc))
  let sz ← scanCounters ptr
  if sz ≠ 15 then
    throw (.throw (.systemError EINVAL
      (some ("Unexpected format in /sys/block/" ++ st.device ++ "/stat"))))

/-- `BLOCK_EXT_MAJOR` of `linux/major.h`. -/
def blockExtMajor : UInt16 := 259

/-- One line of `/proc/diskstats` as the nameless object takes it: added up when its major number
is `BLOCK_EXT_MAJOR`. -/
def addLine (st : Stat) (line : String) : Except Fault Stat := do
  let s ← ofLine line
  return if s.major = blockExtMajor then st.add s else st

/-- `Storage::Stat::Stat(const char *)`: the disk of that name, all disks when the name is empty. -/
def ofName (h : Host) (n : String) : Except Fault Stat := do
  let device ← rethrow (Device.nameFactory n false)
  if device ≠ "" then
    match (load h).run { device := device } with
    | .ok _ st => return st
    | .error e _ => throw e
  else
    let lines ← rethrow (h.lines "/proc/diskstats")
    (lines.filter (· ≠ "")).foldlM addLine {}

/-- `physical()`. -/
def physical (h : Host) (st : Stat) : Bool :=
  match h.realpath ("/sys/block/" ++ st.device) with
  | none => false
  | some path => !strstr path.toList "virtual".toList

/-- `blocksize()`. -/
def blocksize (h : Host) (st : Stat) : Except Exception ℕ :=
  match h.openDevice ("/dev/" ++ st.device) with
  | .error e => .error (.systemError e (some ("Cant open '/dev/" ++ st.device ++ "'")))
  | .ok _ =>
    match h.blksszget ("/dev/" ++ st.device) with
    | .error rc =>
      .error (.systemError rc (some ("Cant get '/dev/" ++ st.device ++ "' block size")))
    | .ok blockSize => .ok blockSize

end Stat

/-! ## `next` -/

theorem skipWord_word {w : List Char} (hw : ∀ c ∈ w, isspace c = false) {g : List Char}
    (hg : Blank g) (hne : g ≠ []) (rest : List Char) :
    skipWord (w ++ g ++ rest) = .ok (g ++ rest) := by
  induction w with
  | nil =>
    cases g with
    | nil => exact absurd rfl hne
    | cons a g =>
      have ha : isspace a = true := hg a (by simp)
      simp [skipWord, ha]
  | cons c w ih =>
    have hc : isspace c = false := hw c (by simp)
    have hrest : w ++ g ++ rest ≠ [] := by simp [hne]
    have ih' := ih (fun c hc => hw c (List.mem_cons_of_mem _ hc))
    rw [List.cons_append, List.cons_append, skipWord, hc, if_neg Bool.false_ne_true, if_neg hrest]
    exact ih'

theorem skipBlank_blank {g : List Char} (hg : Blank g) {c : Char} (hc : isspace c = false)
    (rest : List Char) : skipBlank (g ++ c :: rest) = .ok (c :: rest) := by
  induction g with
  | nil => simp [skipBlank, hc]
  | cons a g ih =>
    have ha : isspace a = true := hg a (by simp)
    have ih' := ih (fun c hc => hg c (List.mem_cons_of_mem _ hc))
    rw [List.cons_append, skipBlank, ha]
    simpa using ih'

/-- **What `next` does on well-formed text**: it lands on the first character behind a word, which
may be empty, and the gap that follows it. -/
theorem next_eq {w g : List Char} (hw : ∀ c ∈ w, isspace c = false) (hg : Blank g) (hne : g ≠ [])
    {c : Char} (hc : isspace c = false) (rest : List Char) :
    next (w ++ g ++ c :: rest) = .ok (c :: rest) := by
  show (skipWord (w ++ g ++ c :: rest) >>= skipBlank) = _
  rw [skipWord_word hw hg hne]
  exact skipBlank_blank hg hc rest

/-- `next` in front of a numeral, from any word before it. -/
theorem next_decimal {w g : List Char} (hw : ∀ c ∈ w, isspace c = false) (hg : Blank g)
    (hne : g ≠ []) (n : ℕ) (rest : List Char) :
    next (w ++ g ++ (decimal n ++ rest)) = .ok (decimal n ++ rest) := by
  obtain ⟨d, ds, hd, -, hsp⟩ := exists_decimal_eq_cons n
  rw [hd, List.cons_append]
  exact next_eq hw hg hne hsp _

/-! ## `parse` and `load`, once the pointers are known -/

/-- `parse` reduces to its four pointers and the counters at the last of them. -/
theorem parse_run {line p₁ p₂ p₃ p₄ : List Char} {st : Stat} (h₁ : next line = .ok p₁)
    (h₂ : next p₁ = .ok p₂) (h₃ : next p₂ = .ok p₃) (h₄ : next p₃ = .ok p₄)
    (hlen : (sscanf statFormat p₄).length = 15) :
    (parse line).run st = .ok ()
      (Stat.storeAll
        { st with
          device := String.ofList (p₃.take (p₃.length - p₄.length - 1))
          major := .ofInt (atoi p₁)
          minor := .ofInt (atoi p₂) }
        (Counter.all.zip (sscanf statFormat p₄))) := by
  simp [parse, h₁, h₂, h₃, h₄, scanCounters, hlen]

/-- **What `load` does once the file is there**: nothing when `next` fails, and otherwise it stores
what is converted before it looks at how much that was. -/
theorem load_run_text {h : Host} {st : Stat} {proc : String} (hd : st.device ≠ "")
    (hproc : h.text ("/sys/block/" ++ st.device ++ "/stat") = .ok proc) :
    (Stat.load h).run st =
      match next (cstr proc) with
      | .error e => .error e st
      | .ok p =>
        if (sscanf statFormat p).length = 15 then
          .ok () (st.storeAll (Counter.all.zip (sscanf statFormat p)))
        else
          .error (.throw (.systemError EINVAL
              (some ("Unexpected format in /sys/block/" ++ st.device ++ "/stat"))))
            (st.storeAll (Counter.all.zip (sscanf statFormat p))) := by
  cases hp : next (cstr proc) with
  | error e => simp [Stat.load, rethrow, hd, hproc, hp]
  | ok p =>
    by_cases hlen : (sscanf statFormat p).length = 15
    · simp [Stat.load, rethrow, hd, hproc, hp, scanCounters, hlen]
    · simp [Stat.load, rethrow, hd, hproc, hp, scanCounters, hlen]

theorem load_run {h : Host} {st : Stat} {proc : String} {p : List Char} (hd : st.device ≠ "")
    (hproc : h.text ("/sys/block/" ++ st.device ++ "/stat") = .ok proc)
    (hp : next (cstr proc) = .ok p) (hlen : (sscanf statFormat p).length = 15) :
    (Stat.load h).run st = .ok () (st.storeAll (Counter.all.zip (sscanf statFormat p))) := by
  rw [load_run_text hd hproc, hp]
  exact if_pos hlen

/-- Whatever `load` returns with, all it has done is to store counters. -/
theorem exists_storeAll_of_load {h : Host} {st st' : Stat}
    (hok : (Stat.load h).run st = .ok () st') : ∃ vs, st' = st.storeAll vs := by
  by_cases hd : st.device = ""
  · simp [Stat.load, hd] at hok
  · cases hproc : h.text ("/sys/block/" ++ st.device ++ "/stat") with
    | error e => simp [Stat.load, rethrow, hd, hproc] at hok
    | ok proc =>
      rw [load_run_text hd hproc] at hok
      split at hok
      · cases hok
      · split at hok
        · injection hok with _ hst
          exact ⟨_, hst.symm⟩
        · cases hok

/-! ## `get` -/

theorem get_of_lines {h : Host} {lines : List String}
    (hfile : h.lines "/proc/diskstats" = .ok lines) :
    Stat.get h = (lines.filter (· ≠ "")).mapM Stat.ofLine := by
  rw [Stat.get, hfile]
  rfl

end SysInfo.Storage
