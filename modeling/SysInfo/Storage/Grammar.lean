import SysInfo.Storage.Malformed

/-!
# What a line of `/proc/diskstats` may be

    [word] gap  major  gap  minor  gap  name  gap  fifteen numbers …

`parse` is a function from lines to objects or exceptions; `Reads` is the relation it decides. A
word has no white space in it and a gap nothing else, and what is in front of the first gap is
skipped. All but the last character of the gap behind the name are taken for a part of the name.
-/

namespace SysInfo.Storage

open Lib (Avoids avoids_pure avoids_modify avoids_throw avoids_ofExcept)
open Lib.CScan Lib.CString

/-- No white space. -/
def Word (w : List Char) : Prop := ∀ c ∈ w, isspace c = false

/-- White space, and some of it. -/
def Gap (g : List Char) : Prop := Blank g ∧ g ≠ []

/-- Something else to begin with. -/
def Begins (p : List Char) : Prop := ∃ c cs, p = c :: cs ∧ isspace c = false

theorem Word.begins_append {w : List Char} (hw : Word w) (hne : w ≠ []) (t : List Char) :
    Begins (w ++ t) := by
  obtain ⟨c, cs, rfl⟩ := List.exists_cons_of_ne_nil hne
  exact ⟨c, cs ++ t, rfl, hw c (by simp)⟩

/-! ## One step -/

theorem skipWord_split {ptr p : List Char} (hok : skipWord ptr = .ok p) :
    ∃ w, Word w ∧ ptr = w ++ p ∧ ∃ c cs, p = c :: cs ∧ isspace c = true := by
  fun_induction skipWord ptr with
  | case1 => cases hok
  | case2 c cs hc =>
    obtain rfl : c :: cs = p := Except.ok.inj hok
    exact ⟨[], by simp [Word], rfl, c, cs, rfl, hc⟩
  | case3 c hc => cases hok
  | case4 c cs hc hne ih =>
    obtain ⟨w, hw, rfl, hp⟩ := ih hok
    refine ⟨c :: w, ?_, rfl, hp⟩
    intro d hd
    rcases List.mem_cons.mp hd with rfl | hd
    · simpa using hc
    · exact hw d hd

theorem skipBlank_split {ptr p : List Char} (hne : ptr ≠ []) (hok : skipBlank ptr = .ok p) :
    ∃ g, Blank g ∧ ptr = g ++ p ∧ Begins p := by
  fun_induction skipBlank ptr with
  | case1 => exact absurd rfl hne
  | case2 c hc => cases hok
  | case3 c cs hc hcs ih =>
    obtain ⟨g, hg, rfl, hp⟩ := ih hcs hok
    refine ⟨c :: g, ?_, rfl, hp⟩
    intro d hd
    rcases List.mem_cons.mp hd with rfl | hd
    · exact hc
    · exact hg d hd
  | case4 c cs hc =>
    obtain rfl : c :: cs = p := Except.ok.inj hok
    exact ⟨[], blank_nil, rfl, c, cs, rfl, by simpa using hc⟩

/-- **`next` goes behind a word and a gap**, and there is no other way for it to return. -/
theorem next_ok_iff {ptr p : List Char} :
    next ptr = .ok p ↔ ∃ w g, Word w ∧ Gap g ∧ Begins p ∧ ptr = w ++ g ++ p := by
  constructor
  · intro hok
    obtain ⟨q, hword, hblank⟩ := Lib.bind_eq_ok_iff.mp hok
    obtain ⟨w, hw, rfl, c, cs, rfl, hc⟩ := skipWord_split hword
    obtain ⟨g, hg, hsplit, hp⟩ := skipBlank_split (List.cons_ne_nil c cs) hblank
    refine ⟨w, g, hw, ⟨hg, ?_⟩, hp, ?_⟩
    · -- the first loop has stopped at white space, the second one has not
      rintro rfl
      obtain ⟨d, ds, rfl, hd⟩ := hp
      obtain ⟨rfl, -⟩ := List.cons.inj hsplit
      rw [hc] at hd
      cases hd
    · rw [hsplit, List.append_assoc]
  · rintro ⟨w, g, hw, ⟨hg, hne⟩, ⟨c, cs, rfl, hc⟩, rfl⟩
    exact next_eq hw hg hne hc cs

theorem skipWord_error {ptr : List Char} {e : Fault} (hne : ptr ≠ [])
    (herror : skipWord ptr = .error e) : e = .throw unexpectedFormat := by
  fun_induction skipWord ptr with
  | case1 => exact absurd rfl hne
  | case2 c cs hc => cases herror
  | case3 c hc => exact (Except.error.inj herror).symm
  | case4 c cs hc hcs ih => exact ih hcs herror

theorem skipBlank_error {ptr : List Char} {e : Fault} (herror : skipBlank ptr = .error e) :
    e = .throw unexpectedFormat := by
  fun_induction skipBlank ptr with
  | case1 => cases herror
  | case2 c hc => exact (Except.error.inj herror).symm
  | case3 c cs hc hcs ih => exact ih herror
  | case4 c cs hc => cases herror

/-- On a text it throws the one exception it has. -/
theorem next_error {ptr : List Char} {e : Fault} (hne : ptr ≠ []) (herror : next ptr = .error e) :
    e = .throw unexpectedFormat := by
  obtain hword | ⟨q, -, hblank⟩ := Lib.bind_eq_error_iff.mp herror
  · exact skipWord_error hne hword
  · exact skipBlank_error hblank

/-! ## A line -/

/-- A line that reads as an object. -/
inductive Reads : List Char → Stat → Prop
  | line {lead g₀ major g₁ minor g₂ name g₃ counters : List Char} {st : Stat} :
      Word lead → Gap g₀ → Word major → major ≠ [] → Gap g₁ → Word minor → minor ≠ [] → Gap g₂ →
      Word name → name ≠ [] → Gap g₃ → Begins counters →
      st.major = .ofInt (atoi major) → st.minor = .ofInt (atoi minor) →
      st.device = String.ofList (name ++ g₃.dropLast) →
      sscanf statFormat counters = Counter.all.map st.counter →
      Reads (lead ++ g₀ ++ (major ++ g₁ ++ (minor ++ g₂ ++ (name ++ g₃ ++ counters)))) st

/-- A word that something begins with is not empty. -/
theorem ne_nil_of_begins {w g p : List Char} (hg : Gap g) (h : Begins (w ++ g ++ p)) : w ≠ [] := by
  rintro rfl
  obtain ⟨c, cs, hsplit, hc⟩ := h
  obtain ⟨b, bs, rfl⟩ := List.exists_cons_of_ne_nil hg.2
  obtain ⟨rfl, -⟩ := List.cons.inj hsplit
  rw [hg.1 b (by simp)] at hc
  cases hc

theorem atoi_word {w g t : List Char} (hne : w ≠ []) (hw : Word w) (hg : Gap g) :
    atoi (w ++ g ++ t) = atoi w := by
  rw [List.append_assoc]
  exact atoi_append hne hw (hg.1.noDigit_append hg.2 t)

/-- The name is what stands between two pointers, without the last character. -/
theorem take_name {n g p : List Char} (hg : g ≠ []) :
    (n ++ g ++ p).take ((n ++ g ++ p).length - p.length - 1) = n ++ g.dropLast := by
  have hpos : 0 < g.length := List.length_pos_of_ne_nil hg
  have hlen : (n ++ g ++ p).length - p.length - 1 = (n ++ g).length - 1 := by
    simp only [List.length_append]
    omega
  rw [hlen, List.take_append_of_le_length (Nat.sub_le _ _), ← List.dropLast_eq_take,
    List.dropLast_append_of_ne_nil hg]

/-- When `parse` returns, its four pointers have found a word each, -/
theorem parse_ok {line : List Char} {st st' : Stat} (hok : (parse line).run st = .ok () st') :
    ∃ p₁ p₂ p₃ p₄, next line = .ok p₁ ∧ next p₁ = .ok p₂ ∧ next p₂ = .ok p₃ ∧ next p₃ = .ok p₄ ∧
      (sscanf statFormat p₄).length = 15 := by
  cases h₁ : next line with
  | error e => simp [parse, h₁] at hok
  | ok p₁ =>
    cases h₂ : next p₁ with
    | error e => simp [parse, h₁, h₂] at hok
    | ok p₂ =>
      cases h₃ : next p₂ with
      | error e => simp [parse, h₁, h₂, h₃] at hok
      | ok p₃ =>
        cases h₄ : next p₃ with
        | error e => simp [parse, h₁, h₂, h₃, h₄] at hok
        | ok p₄ =>
          refine ⟨p₁, p₂, p₃, p₄, rfl, h₂, h₃, h₄, ?_⟩
          by_contra hlen
          simp [parse, h₁, h₂, h₃, h₄, scanCounters, hlen] at hok

/-- A step of a reader that starts with `next` ends with nothing but its exception, if what follows
does. -/
theorem avoids_next_of_ne {α : Type} {e : Fault} (he : e ≠ .throw unexpectedFormat)
    {ptr : List Char} (hne : ptr ≠ []) {f : List Char → EStateM Fault Stat α}
    (hf : ∀ p, p ≠ [] → Avoids e (f p)) : Avoids e (ofExcept (next ptr) >>= f) := by
  apply (avoids_ofExcept fun herror => he (next_error hne herror)).bind
  intro s p s' hrun
  exact hf p (next_lands (Lib.eq_ok_of_run_ofExcept hrun)).ne_nil

/-- and otherwise it has thrown its one exception. -/
theorem avoids_parse_of_ne {e : Fault} (he : e ≠ .throw unexpectedFormat) {ptr : List Char}
    (hne : ptr ≠ []) : Avoids e (parse ptr) := by
  unfold parse
  apply avoids_next_of_ne he hne
  intro p₁ h₁
  apply (avoids_modify _).bind
  intro _ _ _ _
  apply avoids_next_of_ne he h₁
  intro p₂ h₂
  apply (avoids_modify _).bind
  intro _ _ _ _
  apply avoids_next_of_ne he h₂
  intro p₃ h₃
  apply avoids_next_of_ne he h₃
  intro p₄ _
  apply (avoids_modify _).bind
  intro _ _ _ _
  have hscan : Avoids e (scanCounters p₄) := (avoids_modify _).bind fun _ _ _ _ => avoids_pure _
  apply hscan.bind
  intro _ sz _ _
  by_cases hsz : sz ≠ 15
  · rw [if_pos hsz]
    exact avoids_throw he.symm
  · rw [if_neg hsz]
    exact avoids_pure _

/-- What `parse` returns from is a line that reads as what it has made of the new object, -/
theorem reads_of_parse {line : List Char} {st : Stat} (hrun : (parse line).run {} = .ok () st) :
    Reads line st := by
  obtain ⟨p₁, p₂, p₃, p₄, h₁, h₂, h₃, h₄, hlen⟩ := parse_ok hrun
  rw [parse_run h₁ h₂ h₃ h₄ hlen] at hrun
  obtain ⟨lead, g₀, hlead, hg₀, hb₁, hline⟩ := next_ok_iff.mp h₁
  obtain ⟨major, g₁, hmajor, hg₁, hb₂, rfl⟩ := next_ok_iff.mp h₂
  obtain ⟨minor, g₂, hminor, hg₂, hb₃, rfl⟩ := next_ok_iff.mp h₃
  obtain ⟨name, g₃, hname, hg₃, hb₄, rfl⟩ := next_ok_iff.mp h₄
  have hmajorne := ne_nil_of_begins hg₁ hb₁
  have hminorne := ne_nil_of_begins hg₂ hb₂
  rw [atoi_word hmajorne hmajor hg₁, atoi_word hminorne hminor hg₂, take_name hg₃.2] at hrun
  injection hrun with _ hst
  subst hst
  obtain ⟨hd, hj, hn⟩ := Stat.identity_storeAll (Counter.all.zip (sscanf statFormat p₄)) _
  rw [hline]
  exact Reads.line hlead hg₀ hmajor hmajorne hg₁ hminor hminorne hg₂ hname
    (ne_nil_of_begins hg₃ hb₃) hg₃ hb₄ hj hn hd
    (Stat.map_counter_storeAll _ hlen scanned_lt).symm

/-- and from every such line it returns. -/
theorem Reads.parse_run {line : List Char} {st : Stat} (hreads : Reads line st) :
    (parse line).run {} = .ok () st := by
  cases hreads with
  | @line lead g₀ major g₁ minor g₂ name g₃ counters _ hlead hg₀ hmajor hmajorne hg₁ hminor
      hminorne hg₂ hname hnamene hg₃ hb₄ hj hn hd hvalues =>
    have h₄ : next (name ++ g₃ ++ counters) = .ok counters :=
      next_ok_iff.mpr ⟨name, g₃, hname, hg₃, hb₄, rfl⟩
    have hb₃ : Begins (name ++ g₃ ++ counters) := by
      rw [List.append_assoc]
      exact hname.begins_append hnamene _
    have h₃ := next_ok_iff.mpr ⟨minor, g₂, hminor, hg₂, hb₃, rfl⟩
    have hb₂ : Begins (minor ++ g₂ ++ (name ++ g₃ ++ counters)) := by
      rw [List.append_assoc]
      exact hminor.begins_append hminorne _
    have h₂ := next_ok_iff.mpr ⟨major, g₁, hmajor, hg₁, hb₂, rfl⟩
    have hb₁ : Begins (major ++ g₁ ++ (minor ++ g₂ ++ (name ++ g₃ ++ counters))) := by
      rw [List.append_assoc]
      exact hmajor.begins_append hmajorne _
    have h₁ := next_ok_iff.mpr ⟨lead, g₀, hlead, hg₀, hb₁, rfl⟩
    have hlen : (sscanf statFormat counters).length = 15 := by
      rw [hvalues, List.length_map]
      rfl
    rw [Storage.parse_run h₁ h₂ h₃ h₄ hlen, atoi_word hmajorne hmajor hg₁,
      atoi_word hminorne hminor hg₂, take_name hg₃.2]
    set born : Stat :=
      { device := String.ofList (name ++ g₃.dropLast)
        major := .ofInt (atoi major)
        minor := .ofInt (atoi minor) } with hborn
    -- the identity and the fifteen counters are all there is to an object
    apply congrArg (EStateM.Result.ok ())
    obtain ⟨hd', hj', hn'⟩ :=
      born.identity_storeAll (Counter.all.zip (sscanf statFormat counters))
    apply Stat.ext_counter (hd'.trans hd.symm) (hj'.trans hj.symm) (hn'.trans hn.symm)
    intro k
    have hcounters := born.map_counter_storeAll hlen scanned_lt
    rw [hvalues] at hcounters ⊢
    exact List.map_inj_left.mp hcounters k k.mem_all

/-- **Which lines read as which objects.** -/
theorem ofLine_ok_iff {line : String} {st : Stat} :
    Stat.ofLine line = .ok st ↔ Reads (cstr line) st := by
  constructor
  · intro hok
    unfold Stat.ofLine at hok
    cases hrun : (parse (cstr line)).run {} with
    | error e st' =>
      rw [hrun] at hok
      cases hok
    | ok u st' =>
      rw [hrun] at hok
      obtain rfl : st' = st := Except.ok.inj hok
      exact reads_of_parse hrun
  · intro hreads
    rw [Stat.ofLine, hreads.parse_run]

/-- The name starts as a word does. -/
theorem Reads.device_begins {line : List Char} {st : Stat} (h : Reads line st) :
    Begins st.device.toList := by
  cases h with
  | line _ _ _ _ _ _ _ _ hname hne _ _ _ _ hd _ =>
    rw [hd, String.toList_ofList]
    exact hname.begins_append hne _

/-- It has no character that the line does not have. -/
theorem Reads.mem_of_mem_device {line : List Char} {st : Stat} (h : Reads line st) {c : Char}
    (hc : c ∈ st.device.toList) : c ∈ line := by
  cases h with
  | @line _ _ _ _ _ _ name g₃ _ _ _ _ _ _ _ _ _ _ _ _ _ _ _ _ hd _ =>
    rw [hd, String.toList_ofList, List.mem_append] at hc
    rcases hc with hc | hc
    · simp [hc]
    · simp [List.mem_of_mem_dropLast hc]

/-! ## The listing -/

theorem cstr_eq_toList {line : String} (hnul : ∀ c ∈ line.toList, c.toNat ≠ 0) :
    cstr line = line.toList := by
  have hcstr := cstr_ofList hnul
  rwa [String.ofList_toList] at hcstr

theorem ofLine_error {line : String} {e : Fault} (hne : line ≠ "")
    (hnul : ∀ c ∈ line.toList, c.toNat ≠ 0) (herror : Stat.ofLine line = .error e) :
    e = .throw unexpectedFormat := by
  by_contra he
  unfold Stat.ofLine at herror
  cases hrun : (parse (cstr line)).run {} with
  | ok u st =>
    rw [hrun] at herror
    cases herror
  | error e' st =>
    rw [hrun] at herror
    obtain rfl : e' = e := Except.error.inj herror
    exact avoids_parse_of_ne he (cstr_ne_nil hne hnul) _ st hrun

/-- **What `get` makes of any file**: as many objects as there are lines with something in them,
each read from its line; or the one exception, when there is a line that reads as none. -/
theorem listing_reads (h : Host) (lines : List String)
    (hfile : h.lines "/proc/diskstats" = .ok lines)
    (hnul : ∀ line ∈ lines, ∀ c ∈ line.toList, c.toNat ≠ 0) :
    (∀ stats, Stat.get h = .ok stats ↔
      List.Forall₂ (fun line st => Reads line.toList st) (lines.filter (· ≠ "")) stats) ∧
    (∀ e, Stat.get h = .error e ↔ e = .throw unexpectedFormat ∧
      ∃ line ∈ lines, line ≠ "" ∧ ∀ st, ¬ Reads line.toList st) := by
  have hmem : ∀ line ∈ lines.filter (· ≠ ""), line ∈ lines ∧ line ≠ "" := by
    intro line hline
    obtain ⟨hline, hne⟩ := List.mem_filter.mp hline
    exact ⟨hline, by simpa using hne⟩
  have hreads : ∀ line ∈ lines, ∀ st, Stat.ofLine line = .ok st ↔ Reads line.toList st := by
    intro line hline st
    rw [ofLine_ok_iff, cstr_eq_toList (hnul line hline)]
  rw [get_of_lines hfile]
  constructor
  · intro stats
    apply Lib.mapM_eq_ok_iff
    intro line hline
    exact hreads line (hmem line hline).1
  · intro e
    constructor
    · intro herror
      obtain ⟨line, hline, he⟩ := Lib.exists_of_mapM_eq_error herror
      obtain ⟨hline, hne⟩ := hmem line hline
      refine ⟨ofLine_error hne (hnul line hline) he, line, hline, hne, ?_⟩
      intro st hst
      rw [(hreads line hline st).mpr hst] at he
      cases he
    · rintro ⟨rfl, line, hline, hne, hnone⟩
      cases hmap : (lines.filter (· ≠ "")).mapM Stat.ofLine with
      | ok stats =>
        have hfiltered : line ∈ lines.filter (· ≠ "") :=
          List.mem_filter.mpr ⟨hline, by simpa using hne⟩
        obtain ⟨st, hst⟩ := Lib.exists_of_mapM_eq_ok hmap hfiltered
        exact absurd ((hreads line hline st).mp hst) (hnone st)
      | error e =>
        obtain ⟨line', hline', he⟩ := Lib.exists_of_mapM_eq_error hmap
        obtain ⟨hline', hne'⟩ := hmem line' hline'
        rw [ofLine_error hne' (hnul line' hline') he]

/-- A machine with this listing. -/
def listingOf (lines : List String) : Host where
  __ := Host.bare
  lines _ := .ok lines

theorem listing_reads_sda :
    Stat.get (listingOf ["", (sda 7).line]) = .ok [(sda 7).stat] ↔
      List.Forall₂ (fun line st => Reads line.toList st)
        (["", (sda 7).line].filter (· ≠ "")) [(sda 7).stat] := by
  have hnul : ∀ line ∈ ["", (sda 7).line], ∀ c ∈ line.toList, c.toNat ≠ 0 := by
    intro line hline c hc
    rcases List.mem_cons.mp hline with rfl | hline
    · cases hc
    · obtain rfl := List.mem_singleton.mp hline
      apply toNat_ne_zero_of_mem_cstr
      rw [Record.cstr_line]
      rwa [Record.line, String.toList_ofList] at hc
  exact (listing_reads (listingOf ["", (sda 7).line]) _ rfl hnul).1 _

end SysInfo.Storage
