import SysInfo.Storage.DeviceName
import SysInfo.Storage.Identity

/-!
# Names that are names again

    text, node ──NameFactory──▶ name ──NameFactory──▶ name
                                  │
                          Stat ───┴──name()──▶ Stat

`Data::refresh()` builds a `Stat` from the name of an object that had its name from a `Stat`, so
every name goes through the factory again, once for each tick. It comes through unchanged, and the
object that is built from it is the one it was taken from (`names_settle`).
-/

namespace SysInfo.Storage

open Lib.CString Lib.Path

/-! ## The factory -/

/-- Without a last component a text ends with a slash. -/
theorem exists_eq_append_slash {s : List Char} (hne : s ≠ []) (hbase : base s = []) :
    ∃ p, s = p ++ ['/'] := by
  have hslash : '/' ∈ s := by
    by_contra hslash
    rw [base_of_notMem hslash] at hbase
    exact hne hbase
  obtain ⟨p, hp, -⟩ := exists_eq_append_base hslash
  rw [hbase] at hp
  exact ⟨p, hp⟩

/-- A text without characters gives the empty name or, where one is required, an exception; no other
text is refused. -/
theorem nameFactory_error_iff {devname : String} {required : Bool} :
    (∃ e, Device.nameFactory devname required = .error e) ↔
      required = true ∧ cstr devname = [] := by
  by_cases hempty : cstr devname = []
  · rw [nameFactory_of_empty hempty]
    cases required <;> simp [hempty]
  · apply iff_of_false _ (fun h => hempty h.2)
    rintro ⟨e, he⟩
    by_cases hbase : base (cstr devname) = []
    · obtain ⟨p, hp⟩ := exists_eq_append_slash hempty hbase
      rw [nameFactory_of_trailing hp] at he
      cases he
    · rw [nameFactory_of_base hbase] at he
      cases he

/-- **What the factory has made is left as it is**, a slash at its end included. -/
theorem nameFactory_again {devname name : String} {required : Bool}
    (hok : Device.nameFactory devname required = .ok name) (hne : name ≠ "") (required' : Bool) :
    Device.nameFactory name required' = .ok name := by
  by_cases hempty : cstr devname = []
  · rw [nameFactory_of_empty hempty] at hok
    cases required with
    | true => cases hok
    | false =>
      obtain rfl : "" = name := Except.ok.inj hok
      exact absurd rfl hne
  · by_cases hbase : base (cstr devname) = []
    · -- the text ends with a slash, and so does the name
      obtain ⟨p, hp⟩ := exists_eq_append_slash hempty hbase
      rw [nameFactory_of_trailing hp] at hok
      obtain rfl := Except.ok.inj hok
      have hcstr : cstr (String.ofList (p ++ ['/'])) = p ++ ['/'] := by
        apply cstr_ofList
        intro c hc
        rw [← hp] at hc
        exact toNat_ne_zero_of_mem_cstr hc
      exact nameFactory_of_trailing hcstr required'
    · rw [nameFactory_of_base hbase] at hok
      obtain rfl := Except.ok.inj hok
      have hcstr : cstr (String.ofList (base (cstr devname))) = base (cstr devname) := by
        apply cstr_ofList
        intro c hc
        exact toNat_ne_zero_of_mem_cstr (mem_of_mem_base hc)
      rw [nameFactory_of_notMem (by rwa [hcstr]) (by rw [hcstr]; exact slash_notMem_base _), hcstr]

/-- A text with characters in it has a name. -/
theorem exists_nameFactory {devname : String} (hne : cstr devname ≠ []) (required : Bool) :
    ∃ name, Device.nameFactory devname required = .ok name ∧ name ≠ "" := by
  have hofList : ∀ {s : List Char}, s ≠ [] → String.ofList s ≠ "" := by
    intro s hs hempty
    apply hs
    rw [← String.toList_ofList (l := s), hempty]
    rfl
  by_cases hbase : base (cstr devname) = []
  · obtain ⟨p, hp⟩ := exists_eq_append_slash hne hbase
    exact ⟨_, nameFactory_of_trailing hp required, hofList (by simp)⟩
  · exact ⟨_, nameFactory_of_base hbase required, hofList hbase⟩

/-- The text of a node that the name is made of. -/
def nodeText (node : XmlNode) : String :=
  if (node.asString "name").getD "" ≠ "" then (node.asString "name").getD ""
  else (node.asString "device-name").getD ""

theorem nameFactoryOfNode_eq (node : XmlNode) (required : Bool) :
    Device.nameFactoryOfNode node required = Device.nameFactory (nodeText node) required := by
  by_cases hname : (node.asString "name").getD "" = ""
  · simp [Device.nameFactoryOfNode, nodeText, hname]
  · simp [Device.nameFactoryOfNode, nodeText, hname]

/-! ## The object -/

theorem device_of_ofName {h : Host} {n device : String} {st : Stat}
    (hname : Device.nameFactory n false = .ok device) (hok : Stat.ofName h n = .ok st) :
    st.device = device := by
  obtain ⟨device', hdevice, hbuilt⟩ := Lib.bind_eq_ok_iff.mp hok
  rw [hname] at hdevice
  obtain rfl : device = device' := Except.ok.inj hdevice
  by_cases hd : device = ""
  · subst hd
    obtain ⟨lines, -, hsum⟩ := Lib.bind_eq_ok_iff.mp hbuilt
    exact (nameless_of_foldlM_addLine ⟨rfl, rfl, rfl⟩ hsum).1
  · rw [if_pos hd] at hbuilt
    cases hload : (Stat.load h).run { device := device } with
    | error e st' =>
      rw [hload] at hbuilt
      cases hbuilt
    | ok u st' =>
      rw [hload] at hbuilt
      obtain rfl : st' = st := Except.ok.inj hbuilt
      obtain ⟨vs, rfl⟩ := exists_storeAll_of_load hload
      exact (Stat.identity_storeAll vs _).1

/-- The object depends on the text only through the name. -/
theorem ofName_congr {h : Host} {n n' : String}
    (hname : Device.nameFactory n false = Device.nameFactory n' false) :
    Stat.ofName h n = Stat.ofName h n' := by
  rw [Stat.ofName, Stat.ofName, hname]

/-- **An object is built again by its own name.** -/
theorem ofName_again {h : Host} {n : String} {st : Stat} (hok : Stat.ofName h n = .ok st) :
    Stat.ofName h st.device = .ok st := by
  cases hname : Device.nameFactory n false with
  | error e =>
    rw [Stat.ofName, hname] at hok
    cases hok
  | ok device =>
    have hagain : Device.nameFactory device false = .ok device := by
      by_cases hd : device = ""
      · subst hd
        decide
      · exact nameFactory_again hname hd false
    rw [device_of_ofName hname hok, ofName_congr (hagain.trans hname.symm), hok]

/-- **Names settle.** What the factory makes of any text or node is a name that it leaves as it is,
whether one is required or not; it refuses a node exactly when a name is required and the node has
none; and on any machine an object that was built by any text is built again, with the same
counters, by the name it has. -/
theorem names_settle :
    (∀ devname required name, Device.nameFactory devname required = .ok name → name ≠ "" →
      ∀ required', Device.nameFactory name required' = .ok name) ∧
    (∀ node required name, Device.nameFactoryOfNode node required = .ok name → name ≠ "" →
      ∀ required', Device.nameFactory name required' = .ok name) ∧
    (∀ node required, (∃ e, Device.nameFactoryOfNode node required = .error e) ↔
      required = true ∧ cstr (nodeText node) = []) ∧
    ∀ h n st, Stat.ofName h n = .ok st → Stat.ofName h st.device = .ok st := by
  refine ⟨fun _ _ _ => nameFactory_again, ?_, ?_, fun _ _ _ => ofName_again⟩
  · intro node required name hok
    rw [nameFactoryOfNode_eq] at hok
    exact nameFactory_again hok
  · intro node required
    rw [nameFactoryOfNode_eq]
    exact nameFactory_error_iff

end SysInfo.Storage
