import SysInfo.Storage.KernelFormat

/-!
# Malformed texts

What the readers make of texts the kernel does not write. A text that is cut short or has a word
among its numbers makes `load` throw, but only after the numbers in front of it have been stored
(`all_or_nothing_iff`). An empty one does worse: `next` looks for the NUL behind the character it
stands on, and behind the NUL itself the text is over (`in_bounds_iff`).
-/

namespace SysInfo.Storage

open Lib (Avoids avoids_pure avoids_modify avoids_throw avoids_ofExcept)
open Lib.CScan Lib.CString

/-! ## Where `next` lands -/

/-- The pointer has moved on, to a character that is no white space. -/
def Lands (ptr p : List Char) : Prop :=
  ∃ pre c cs, ptr = pre ++ c :: cs ∧ pre ≠ [] ∧ p = c :: cs ∧ isspace c = false

theorem Lands.ne_nil {ptr p : List Char} (h : Lands ptr p) : p ≠ [] := by
  obtain ⟨pre, c, cs, -, -, rfl, -⟩ := h
  exact List.cons_ne_nil c cs

/-- The first loop stops at white space. -/
theorem skipWord_ok {ptr p : List Char} (hok : skipWord ptr = .ok p) :
    ∃ w c cs, ptr = w ++ c :: cs ∧ p = c :: cs ∧ isspace c = true := by
  fun_induction skipWord ptr with
  | case1 => cases hok
  | case2 c cs hc =>
    obtain rfl : c :: cs = p := Except.ok.inj hok
    exact ⟨[], c, cs, rfl, rfl, hc⟩
  | case3 c hc => cases hok
  | case4 c cs hc hne ih =>
    obtain ⟨w, d, ds, rfl, hp, hd⟩ := ih hok
    exact ⟨c :: w, d, ds, rfl, hp, hd⟩

/-- The second loop stops behind it. -/
theorem skipBlank_ok {ptr p : List Char} (hne : ptr ≠ []) (hok : skipBlank ptr = .ok p) :
    ∃ g c cs, ptr = g ++ c :: cs ∧ p = c :: cs ∧ isspace c = false := by
  fun_induction skipBlank ptr with
  | case1 => exact absurd rfl hne
  | case2 c hc => cases hok
  | case3 c cs hc hcs ih =>
    obtain ⟨g, d, ds, rfl, hp, hd⟩ := ih hcs hok
    exact ⟨c :: g, d, ds, rfl, hp, hd⟩
  | case4 c cs hc =>
    obtain rfl : c :: cs = p := Except.ok.inj hok
    exact ⟨[], c, cs, rfl, rfl, by simpa using hc⟩

/-- **Where `next` lands**: strictly behind its start, at the beginning of a word. -/
theorem next_lands {ptr p : List Char} (hok : next ptr = .ok p) : Lands ptr p := by
  obtain ⟨q, hword, hblank⟩ := Lib.bind_eq_ok_iff.mp hok
  obtain ⟨w, c, cs, rfl, rfl, hc⟩ := skipWord_ok hword
  obtain ⟨g, d, ds, hsplit, rfl, hd⟩ := skipBlank_ok (List.cons_ne_nil c cs) hblank
  refine ⟨w ++ g, d, ds, ?_, ?_, rfl, hd⟩
  · rw [hsplit, List.append_assoc]
  · -- the first loop has stopped at white space, the second one has not
    intro hnil
    obtain ⟨rfl, rfl⟩ := List.append_eq_nil_iff.mp hnil
    obtain ⟨rfl, -⟩ := List.cons.inj hsplit
    rw [hc] at hd
    cases hd

theorem skipWord_ne_overrun {ptr : List Char} (hne : ptr ≠ []) :
    skipWord ptr ≠ .error .overrun := by
  fun_induction skipWord ptr with
  | case1 => exact absurd rfl hne
  | case2 c cs hc => simp
  | case3 c hc => simp
  | case4 c cs hc hcs ih => exact ih hcs

theorem skipBlank_ne_overrun (ptr : List Char) : skipBlank ptr ≠ .error .overrun := by
  fun_induction skipBlank ptr with
  | case1 => simp
  | case2 c hc => simp
  | case3 c cs hc hcs ih => exact ih
  | case4 c cs hc => simp

/-- **`next` runs off a text exactly from its NUL.** -/
theorem next_overrun_iff {ptr : List Char} : next ptr = .error .overrun ↔ ptr = [] := by
  constructor
  · intro hover
    by_contra hne
    obtain hword | ⟨q, -, hblank⟩ := Lib.bind_eq_error_iff.mp hover
    · exact skipWord_ne_overrun hne hword
    · exact skipBlank_ne_overrun q hblank
  · rintro rfl
    rfl

/-! ## Reloading -/

/-- What `sscanf` stores of the counters fits their fields. -/
theorem scanned_lt {p : List Char} :
    ∀ v ∈ Counter.all.zip (sscanf statFormat p), v.2 < 2 ^ v.1.width := by
  intro v hv
  have hconv : (Record.conv v.1, v.2) ∈
      (Counter.all.map Record.conv).zip (sscanf statFormat p) := by
    rw [List.zip_map_left]
    exact List.mem_map.mpr ⟨v, hv, rfl⟩
  rw [← Record.statFormat_eq] at hconv
  have hlt := sscanf_lt _ hconv
  rwa [Record.width_conv] at hlt

/-- What reloading from a text is for: the fifteen counters are numbers that stand in it one after
the other, or nothing has changed. -/
def AllOrNothing (h : Host) (st : Stat) (proc : String) : Prop :=
  match (Stat.load h).run st with
  | .ok _ st' => ∃ pre p, cstr proc = pre ++ p ∧ sscanf statFormat p = Counter.all.map st'.counter
  | .error (.throw _) st' => st' = st
  | .error .overrun _ => False

/-- Once `next` has landed the rest depends on what is scanned. -/
theorem allOrNothing_iff_of_next {h : Host} {st : Stat} {proc : String} {p : List Char}
    (hdevice : st.device ≠ "") (hproc : h.text ("/sys/block/" ++ st.device ++ "/stat") = .ok proc)
    (hnext : next (cstr proc) = .ok p) :
    AllOrNothing h st proc ↔
      (sscanf statFormat p).length = 15 ∨
        ∀ v ∈ Counter.all.zip (sscanf statFormat p), st.counter v.1 = v.2 := by
  unfold AllOrNothing
  rw [load_run_text hdevice hproc, hnext]
  by_cases hlen : (sscanf statFormat p).length = 15
  · -- `load` returns: the numbers stand where `next` has landed
    obtain ⟨pre, c, cs, hsplit, -, rfl, -⟩ := next_lands hnext
    simp only [if_pos hlen]
    refine iff_of_true ⟨pre, _, hsplit, ?_⟩ (Or.inl hlen)
    exact (st.map_counter_storeAll hlen scanned_lt).symm
  · -- `load` throws: what was stored before has to have been there already
    simp only [if_neg hlen]
    rw [or_iff_right hlen]
    exact Stat.storeAll_eq_self_iff (Stat.nodup_zip _) scanned_lt

/-- **When reloading is all or nothing**: when the text is not empty, and has fifteen numbers behind
its first word, or none, up to where it breaks off, that the object does not have already. -/
theorem all_or_nothing_iff (h : Host) (st : Stat) (proc : String) (hdevice : st.device ≠ "")
    (hproc : h.text ("/sys/block/" ++ st.device ++ "/stat") = .ok proc) :
    AllOrNothing h st proc ↔
      cstr proc ≠ [] ∧ ∀ p, next (cstr proc) = .ok p →
        (sscanf statFormat p).length = 15 ∨
          ∀ v ∈ Counter.all.zip (sscanf statFormat p), st.counter v.1 = v.2 := by
  rw [ne_eq, ← next_overrun_iff]
  cases hnext : next (cstr proc) with
  | error e =>
    unfold AllOrNothing
    rw [load_run_text hdevice hproc, hnext]
    cases e with
    | overrun => simp
    | throw e => simp
  | ok p =>
    rw [allOrNothing_iff_of_next hdevice hproc hnext]
    simp

/-- A machine with this text for every disk. -/
def serving (proc : String) : Host where
  __ := Host.bare
  text _ := .ok proc

theorem all_or_nothing_word :
    AllOrNothing (serving "  none\n") { device := "sda" } "  none\n" ↔
      cstr "  none\n" ≠ [] ∧ ∀ p, next (cstr "  none\n") = .ok p →
        (sscanf statFormat p).length = 15 ∨
          ∀ v ∈ Counter.all.zip (sscanf statFormat p),
            ({ device := "sda" } : Stat).counter v.1 = v.2 :=
  all_or_nothing_iff _ _ _ (by decide) rfl

/-- The 5 is stored before the word behind it is found to be no number. -/
theorem not_allOrNothing_word :
    ¬ AllOrNothing (serving "  5 x\n") { device := "sda" } "  5 x\n" := by
  have hnext : next (cstr "  5 x\n") = .ok ['5', ' ', 'x', '\n'] := by decide
  have hvalues : sscanf statFormat ['5', ' ', 'x', '\n'] = [5] := by decide
  rw [allOrNothing_iff_of_next (by decide) rfl hnext, hvalues]
  decide

/-! ## Staying within the text -/

/-- A step of a reader that starts with `next`, away from the NUL, comes away from the NUL. -/
theorem avoids_next {α : Type} {ptr : List Char} (hne : ptr ≠ [])
    {f : List Char → EStateM Fault Stat α} (hf : ∀ p, p ≠ [] → Avoids .overrun (f p)) :
    Avoids .overrun (ofExcept (next ptr) >>= f) := by
  apply (avoids_ofExcept (mt next_overrun_iff.mp hne)).bind
  intro s p s' hrun
  have hnext : next ptr = .ok p := Lib.eq_ok_of_run_ofExcept hrun
  exact hf p (next_lands hnext).ne_nil

/-- Scanning may run out of numbers, never out of the text. -/
theorem avoids_scanCounters (ptr : List Char) : Avoids .overrun (scanCounters ptr) := by
  apply (avoids_modify _).bind
  intro s u s' _
  exact avoids_pure _

/-- **`parse` stays within its line**, whatever the line is. -/
theorem avoids_parse {ptr : List Char} (hne : ptr ≠ []) : Avoids .overrun (parse ptr) := by
  unfold parse
  -- four calls of `next`, each from where the one before has landed
  apply avoids_next hne
  intro p₁ h₁
  apply (avoids_modify _).bind
  intro _ _ _ _
  apply avoids_next h₁
  intro p₂ h₂
  apply (avoids_modify _).bind
  intro _ _ _ _
  apply avoids_next h₂
  intro p₃ h₃
  apply avoids_next h₃
  intro p₄ _
  apply (avoids_modify _).bind
  intro _ _ _ _
  -- whatever the last one landed on, `sscanf` stops at the NUL
  apply (avoids_scanCounters p₄).bind
  intro _ sz _ _
  by_cases hsz : sz ≠ 15
  · rw [if_pos hsz]
    exact avoids_throw (by simp)
  · rw [if_neg hsz]
    exact avoids_pure _

theorem cstr_ne_nil {line : String} (hne : line ≠ "") (hnul : ∀ c ∈ line.toList, c.toNat ≠ 0) :
    cstr line ≠ [] := by
  have hcstr := cstr_ofList hnul
  rw [String.ofList_toList] at hcstr
  rw [hcstr]
  exact mt String.toList_eq_nil_iff.mp hne

/-- So does the listing, which passes no empty line on. -/
theorem get_ne_overrun {h : Host} {lines : List String}
    (hfile : h.lines "/proc/diskstats" = .ok lines)
    (hnul : ∀ line ∈ lines, ∀ c ∈ line.toList, c.toNat ≠ 0) : Stat.get h ≠ .error .overrun := by
  rw [Stat.get, hfile]
  apply Lib.mapM_ne_error
  intro line hline hover
  obtain ⟨hmem, hne⟩ := List.mem_filter.mp hline
  have havoids := avoids_parse (cstr_ne_nil (by simpa using hne) (hnul line hmem))
  cases hrun : (parse (cstr line)).run {} with
  | ok u st =>
    rw [Stat.ofLine, hrun] at hover
    cases hover
  | error e st =>
    rw [Stat.ofLine, hrun] at hover
    obtain rfl : e = .overrun := Except.error.inj hover
    exact havoids _ st hrun

/-- Reloading runs off an empty text and off no other. -/
theorem load_overrun_iff {h : Host} {st : Stat} {proc : String} (hdevice : st.device ≠ "")
    (hproc : h.text ("/sys/block/" ++ st.device ++ "/stat") = .ok proc) :
    (∃ st', (Stat.load h).run st = .error .overrun st') ↔ cstr proc = [] := by
  rw [load_run_text hdevice hproc, ← next_overrun_iff]
  cases hnext : next (cstr proc) with
  | error e => simp
  | ok p =>
    by_cases hlen : (sscanf statFormat p).length = 15
    · simp [hlen]
    · simp [hlen]

/-- What the checks of the readers are for: every reader comes to an end within its text, and every
pointer they go on with has moved to the beginning of a word. -/
structure InBounds (h : Host) (st : Stat) : Prop where
  load : ∀ st', (Stat.load h).run st ≠ .error .overrun st'
  parse : ∀ line : String, line ≠ "" → (∀ c ∈ line.toList, c.toNat ≠ 0) →
    Avoids .overrun (parse (cstr line))
  next : ∀ ptr p, (∀ c ∈ ptr, c.toNat ≠ 0) → next ptr = .ok p →
    ∃ pre c cs, ptr = pre ++ c :: cs ∧ pre ≠ [] ∧ p = c :: cs ∧ isspace c = false ∧ c.toNat ≠ 0

/-- **When the readers stay within their texts**: when the text under `/sys/block` is not empty. -/
theorem in_bounds_iff (h : Host) (st : Stat) (proc : String) (hdevice : st.device ≠ "")
    (hproc : h.text ("/sys/block/" ++ st.device ++ "/stat") = .ok proc) :
    InBounds h st ↔ cstr proc ≠ [] := by
  rw [ne_eq, ← load_overrun_iff hdevice hproc]
  constructor
  · rintro ⟨hload, -, -⟩ ⟨st', hover⟩
    exact hload st' hover
  · intro hload
    refine ⟨not_exists.mp hload, ?_, ?_⟩
    · intro line hne hnul
      exact avoids_parse (cstr_ne_nil hne hnul)
    · intro ptr p hnul hok
      obtain ⟨pre, c, cs, rfl, hpre, hp, hc⟩ := next_lands hok
      exact ⟨pre, c, cs, rfl, hpre, hp, hc, hnul c (by simp)⟩

theorem in_bounds_word :
    InBounds (serving "  none\n") { device := "sda" } ↔ cstr "  none\n" ≠ [] :=
  in_bounds_iff _ _ _ (by decide) rfl

/-- The terminating NUL is no white space. -/
theorem not_inBounds_empty : ¬ InBounds (serving "") { device := "sda" } := by
  intro hbounds
  have hover : ∃ st', (Stat.load (serving "")).run { device := "sda" } = .error .overrun st' := by
    rw [load_overrun_iff (by decide) rfl]
    rfl
  obtain ⟨st', hrun⟩ := hover
  exact hbounds.load st' hrun

end SysInfo.Storage
