import Mathlib.Tactic.IntervalCases
import SysInfo.System.Stat

/-!
# The types and their names

    "IOWait" ──TypeFactory──▶ 4 ──to_string──▶ "iowait"

A `System::Stat::Type` is an `unsigned short`, and eleven of its values are types. Names and types
belong to each other up to case (`typeFactory_ok_iff`); what the functions do with the other values
is less of one piece (`types_and_names`).
-/

namespace SysInfo.System

open Lib.CString (strcaseeq ignoringCase)

/-- The value of an enumerator. -/
def StatType.code : StatType → UInt16
  | .user => 0
  | .nice => 1
  | .system => 2
  | .idle => 3
  | .iowait => 4
  | .irq => 5
  | .softirq => 6
  | .steal => 7
  | .guest => 8
  | .guestNice => 9
  | .total => 10

/-- `std::to_string(type)`. The table has eleven entries, and a 12th one would be read for 11. -/
def typeText (type : UInt16) : Except Fault String :=
  if type.toNat > typenames.length then .ok "undefined"
  else
    match typenames[type.toNat]? with
    | some entry => .ok entry.1
    | none => .error .overrun

/-- `System::Stat::TypeInfo`, where a `const char *` may be null. -/
structure TypeInfo where
  label : Option String
  summary : Option String

def typeinfo : List TypeInfo := [
  { label := "Normal processes"
    summary := "CPU used by normal processes executing in user mode" },
  { label := "Niced processes"
    summary := "Ticks used by niced processes executing in user mode" },
  { label := "Kernel mode"
    summary := "Ticks used by processes executing in kernel mode" },
  { label := "IDLE"
    summary := "twiddling thumbs" },
  { label := "Waiting for I/O"
    summary := "Ticks waiting for I/O to complete" },
  { label := "Interrupts"
    summary := "Ticks spent servicing interrupts" },
  { label := "Soft IRQS"
    summary := "Ticks spent servicing softirqs" },
  { label := "Involuntary wait"
    summary := "Ticks spent executing other virtual hosts (in virtual environments like Xen)" },
  { label := "Running a normal guest"
    summary := "" },
  { label := "Running a niced guest"
    summary := "" },
  { label := "Total use of CPU"
    summary := "Total CPU used by all processes and interrupts" },
  { label := none
    summary := none }]

/-- `typeinfo[ix]`. -/
def infoOf (ix : UInt16) : Except Fault TypeInfo :=
  match typeinfo[ix.toNat]? with
  | some info => .ok info
  | none => .error .overrun

namespace Stat

/-- `getLabel(ix)`. -/
def getLabel (ix : UInt16) : Except Fault (Option String) := (infoOf ix).map TypeInfo.label

/-- `getSummary(ix)`. -/
def getSummary (ix : UInt16) : Except Fault (Option String) := (infoOf ix).map TypeInfo.summary

/-- `operator[](const Type)`, for any value of the type. -/
def getByCode (st : Stat) (ix : UInt16) : Except Exception UInt64 :=
  match (typenames.map Prod.snd).find? fun type => type.code = ix with
  | some type => .ok (st.get type)
  | none => .error (.systemError EINVAL (some "Invalid type"))

end Stat

/-- `TypeFactory(const pugi::xml_node &)`. -/
def typeFactoryOfNode (node : XmlNode) : Except Exception StatType :=
  typeFactory ((node.asString "field-name").getD "total")

/-! ## Names -/

/-- The name of a type in the table. -/
def StatType.name : StatType → String
  | .user => "user"
  | .nice => "nice"
  | .system => "system"
  | .idle => "idle"
  | .iowait => "iowait"
  | .irq => "irq"
  | .softirq => "softirq"
  | .steal => "steal"
  | .guest => "guest"
  | .guestNice => "guest_nice"
  | .total => "total"

theorem StatType.mem_typenames (type : StatType) : (type.name, type) ∈ typenames := by
  cases type <;> simp [typenames, StatType.name]

theorem name_of_mem_typenames {entry : String × StatType} (h : entry ∈ typenames) :
    entry.1 = entry.2.name := by
  simp only [typenames, List.mem_cons, List.not_mem_nil, or_false] at h
  rcases h with rfl | rfl | rfl | rfl | rfl | rfl | rfl | rfl | rfl | rfl | rfl <;> rfl

/-- No two names differ in case only. -/
theorem StatType.name_inj_case {type type' : StatType}
    (h : strcaseeq type.name type'.name = true) : type = type' := by
  cases type <;> cases type' <;> first | rfl | exact absurd h (by decide)

/-- **A name stands for a type when it is the type's own up to case.** The name `total` is found in
the table already, and the test behind the loop never decides. -/
theorem typeFactory_ok_iff {name : String} {type : StatType} :
    typeFactory name = .ok type ↔ strcaseeq name type.name = true := by
  constructor
  · intro hok
    unfold typeFactory at hok
    cases hfind : typenames.find? fun entry => strcaseeq name entry.1 with
    | some entry =>
      rw [hfind] at hok
      obtain rfl : entry.2 = type := Except.ok.inj hok
      rw [← name_of_mem_typenames (List.mem_of_find?_eq_some hfind)]
      simpa using List.find?_some hfind
    | none =>
      have htotal := List.find?_eq_none.mp hfind _ StatType.total.mem_typenames
      rw [hfind] at hok
      simp only [show StatType.total.name = "total" from rfl] at htotal
      rw [if_neg htotal] at hok
      cases hok
  · intro hname
    unfold typeFactory
    cases hfind : typenames.find? fun entry => strcaseeq name entry.1 with
    | none =>
      have hnone := List.find?_eq_none.mp hfind _ type.mem_typenames
      exact absurd hname hnone
    | some entry =>
      have hentry : strcaseeq name entry.1 = true := by simpa using List.find?_some hfind
      rw [name_of_mem_typenames (List.mem_of_find?_eq_some hfind)] at hentry
      have hsame := ignoringCase.trans (ignoringCase.symm hname) hentry
      rw [StatType.name_inj_case hsame]

/-- A node that does not say what it is about is about the total. -/
theorem typeFactoryOfNode_of_none {node : XmlNode} (hnone : node.asString "field-name" = none) :
    typeFactoryOfNode node = .ok .total := by
  rw [typeFactoryOfNode, hnone]
  exact typeFactory_ok_iff.mpr (ignoringCase.refl "total")

/-! ## Values -/

theorem StatType.code_toNat_lt (type : StatType) : type.code.toNat < 11 := by
  cases type <;> decide

/-- The table has the types in the order of their values. -/
theorem typenames_code (type : StatType) :
    typenames[type.code.toNat]? = some (type.name, type) := by
  cases type <;> rfl

theorem code_of_typenames {i : ℕ} {entry : String × StatType} (h : typenames[i]? = some entry) :
    entry.2.code.toNat = i := by
  obtain ⟨hi, rfl⟩ := List.getElem?_eq_some_iff.mp h
  revert i
  decide

/-- The values below 11 are the types. -/
theorem exists_code_iff {ix : UInt16} : (∃ type : StatType, type.code = ix) ↔ ix.toNat < 11 := by
  constructor
  · rintro ⟨type, rfl⟩
    exact type.code_toNat_lt
  · intro hlt
    refine ⟨typenames[ix.toNat].2, UInt16.toNat_inj.mp ?_⟩
    exact code_of_typenames (List.getElem?_eq_getElem hlt)

theorem typeText_code (type : StatType) : typeText type.code = .ok type.name := by
  have hlt := type.code_toNat_lt
  have hlength : typenames.length = 11 := rfl
  rw [typeText, if_neg (by omega), typenames_code]

theorem typeText_of_lt {ix : UInt16} (hlt : 11 < ix.toNat) : typeText ix = .ok "undefined" := by
  rw [typeText]
  exact if_pos hlt

/-- For the first value behind the types the table is left. -/
theorem typeText_eleven {ix : UInt16} (heq : ix.toNat = 11) : typeText ix = .error .overrun := by
  rw [typeText, heq]
  rfl

theorem getByCode_code (st : Stat) (type : StatType) :
    st.getByCode type.code = .ok (st.get type) := by
  cases type <;> rfl

theorem getByCode_of_le {ix : UInt16} (hle : 11 ≤ ix.toNat) (st : Stat) :
    st.getByCode ix = .error (.systemError EINVAL (some "Invalid type")) := by
  have hnone : ((typenames.map Prod.snd).find? fun type => type.code = ix) = none := by
    rw [List.find?_eq_none]
    intro type _ hcode
    have hlt := type.code_toNat_lt
    rw [of_decide_eq_true hcode] at hlt
    omega
  rw [Stat.getByCode, hnone]

/-- Every type has both texts, -/
theorem infoOf_of_lt {ix : UInt16} (hlt : ix.toNat < 11) :
    ∃ label summary, infoOf ix = .ok ⟨some label, some summary⟩ := by
  have htexts : ∀ i < 11, ∃ label summary, typeinfo[i]? = some ⟨some label, some summary⟩ := by
    intro i hi
    interval_cases i <;> exact ⟨_, _, rfl⟩
  obtain ⟨label, summary, hinfo⟩ := htexts _ hlt
  refine ⟨label, summary, ?_⟩
  rw [infoOf, hinfo]

/-- and behind them there is one entry without. -/
theorem infoOf_eleven {ix : UInt16} (heq : ix.toNat = 11) : infoOf ix = .ok ⟨none, none⟩ := by
  rw [infoOf, heq]
  rfl

theorem infoOf_of_gt {ix : UInt16} (hlt : 11 < ix.toNat) : infoOf ix = .error .overrun := by
  have hnone : typeinfo[ix.toNat]? = none := List.getElem?_eq_none hlt
  rw [infoOf, hnone]

/-- What the functions make of a value. -/
inductive Treated (ix : UInt16) : Prop
  /-- A type: it is printed as its name, which is read back, has a counter and both texts. -/
  | type (type : StatType) (label summary : String) :
      type.code = ix → typeText ix = .ok type.name → typeFactory type.name = .ok type →
      (∀ st : Stat, st.getByCode ix = .ok (st.get type)) →
      Stat.getLabel ix = .ok (some label) → Stat.getSummary ix = .ok (some summary) → Treated ix
  /-- The value behind the types: -/
  | behind : ix.toNat = 11 → typeText ix = .error .overrun →
      (∀ st : Stat, st.getByCode ix = .error (.systemError EINVAL (some "Invalid type"))) →
      Stat.getLabel ix = .ok none → Stat.getSummary ix = .ok none → Treated ix
  | beyond : 11 < ix.toNat → typeText ix = .ok "undefined" →
      (∀ st : Stat, st.getByCode ix = .error (.systemError EINVAL (some "Invalid type"))) →
      Stat.getLabel ix = .error .overrun → Stat.getSummary ix = .error .overrun → Treated ix

theorem treated (ix : UInt16) : Treated ix := by
  rcases Nat.lt_trichotomy ix.toNat 11 with hlt | heq | hgt
  · obtain ⟨type, rfl⟩ := exists_code_iff.mpr hlt
    obtain ⟨label, summary, hinfo⟩ := infoOf_of_lt hlt
    apply Treated.type type label summary rfl (typeText_code type)
    · exact typeFactory_ok_iff.mpr (ignoringCase.refl _)
    · intro st
      exact getByCode_code st type
    · rw [Stat.getLabel, hinfo]
      rfl
    · rw [Stat.getSummary, hinfo]
      rfl
  · apply Treated.behind heq (typeText_eleven heq) (getByCode_of_le heq.ge)
    · rw [Stat.getLabel, infoOf_eleven heq]
      rfl
    · rw [Stat.getSummary, infoOf_eleven heq]
      rfl
  · apply Treated.beyond hgt (typeText_of_lt hgt) (getByCode_of_le hgt.le)
    · rw [Stat.getLabel, infoOf_of_gt hgt]
      rfl
    · rw [Stat.getSummary, infoOf_of_gt hgt]
      rfl

/-- The text for the values beyond is no name. -/
theorem typeFactory_undefined :
    typeFactory "undefined" = .error (.runtimeError "Unexpected property name 'undefined'") := by
  decide

/-- **Types, values and names.** A name is accepted for a type when it is what is printed for it, up
to case; the name printed for a value asks for the same counter as the value, also where there is
none; and all functions are defined on the values of the types, while each of them has its own way
with the others. -/
theorem types_and_names :
    (∀ name type, typeFactory name = .ok type ↔
      ∃ text, typeText type.code = .ok text ∧ strcaseeq name text = true) ∧
    (∀ (st : Stat) ix text, typeText ix = .ok text →
      ∀ v, st.getByName text = .ok v ↔ st.getByCode ix = .ok v) ∧
    ∀ ix, Treated ix := by
  refine ⟨?_, ?_, treated⟩
  · intro name type
    rw [typeFactory_ok_iff, typeText_code]
    simp
  · intro st ix text htext v
    obtain ⟨type, label, summary, -, hprinted, hread, hget, -, -⟩ | ⟨-, hprinted, -, -, -⟩ |
      ⟨-, hprinted, hget, -, -⟩ := treated ix
    · obtain rfl : type.name = text := Except.ok.inj (hprinted.symm.trans htext)
      rw [Stat.getByName, hread, hget]
      rfl
    · rw [hprinted] at htext
      cases htext
    · obtain rfl : "undefined" = text := Except.ok.inj (hprinted.symm.trans htext)
      rw [Stat.getByName, typeFactory_undefined, hget]
      exact iff_of_false nofun nofun

end SysInfo.System
