import SysInfo.Lib.Path
import SysInfo.Storage.DiskStats

/-!
# Device names and the paths built from them

`load()`, `physical()` and `blocksize()` put the name of a device behind a directory. The name is
what `NameFactory` makes of the text it is given, and that is the last component of the text
unless nothing stands behind the last slash (`fit_for_paths_iff`).
-/

namespace SysInfo.Storage

open Lib.CString Lib.Path

/-! ## What the factory returns -/

theorem nameFactory_of_empty {devname : String} (h : cstr devname = []) (required : Bool) :
    Device.nameFactory devname required =
      if required then .error (.runtimeError "A device name is required") else .ok "" := by
  rw [Device.nameFactory, h]
  rfl

/-- A text without a slash is a name already. -/
theorem nameFactory_of_notMem {devname : String} (hne : cstr devname ≠ [])
    (h : '/' ∉ cstr devname) (required : Bool) :
    Device.nameFactory devname required = .ok (String.ofList (cstr devname)) := by
  simp [Device.nameFactory, hne, strrchr_eq_none h]

/-- A text with something behind its last slash is cut there, -/
theorem nameFactory_of_append {devname : String} {p n : List Char}
    (h : cstr devname = p ++ '/' :: n) (hn : '/' ∉ n) (hne : n ≠ []) (required : Bool) :
    Device.nameFactory devname required = .ok (String.ofList n) := by
  obtain ⟨c, cs, rfl⟩ := List.exists_cons_of_ne_nil hne
  simp [Device.nameFactory, h, strrchr_append hn]

/-- and one that ends with a slash comes back as it is. -/
theorem nameFactory_of_trailing {devname : String} {p : List Char}
    (h : cstr devname = p ++ ['/']) (required : Bool) :
    Device.nameFactory devname required = .ok (String.ofList (p ++ ['/'])) := by
  have hlast : strrchr '/' (p ++ ['/']) = some ['/'] := strrchr_append (by simp) p
  simp [Device.nameFactory, h, hlast]

/-- In terms of the last component. -/
theorem nameFactory_of_base {devname : String} (h : base (cstr devname) ≠ []) (required : Bool) :
    Device.nameFactory devname required = .ok (String.ofList (base (cstr devname))) := by
  by_cases hslash : '/' ∈ cstr devname
  · obtain ⟨p, hp, hbase⟩ := exists_eq_append_base hslash
    exact nameFactory_of_append hp hbase h required
  · rw [base_of_notMem hslash] at h ⊢
    exact nameFactory_of_notMem h hslash required

/-! ## The paths -/

/-- Do the paths with the name in them lead to one entry of `/sys/block`, and of `/dev`? -/
def PathsInside (name : String) : Prop :=
  ∃ e,
    resolve ("/sys/block/" ++ name ++ "/stat").toList =
      ["sys".toList, "block".toList, e, "stat".toList] ∧
    resolve ("/sys/block/" ++ name).toList = ["sys".toList, "block".toList, e] ∧
    resolve ("/dev/" ++ name).toList = ["dev".toList, e]

/-- They do when the name is one of an entry, and only then. -/
theorem pathsInside_ofList_iff {n : List Char} (hn : '/' ∉ n) :
    PathsInside (String.ofList n) ↔ IsEntry n := by
  have hdev : ("/dev/" ++ String.ofList n).toList = "/dev".toList ++ '/' :: n := by simp
  have hblock : ("/sys/block/" ++ String.ofList n).toList = "/sys/block".toList ++ '/' :: n := by
    simp
  have hstat : ("/sys/block/" ++ String.ofList n ++ "/stat").toList =
      ("/sys/block/" ++ String.ofList n).toList ++ '/' :: "stat".toList := by simp
  constructor
  · intro hinside
    obtain ⟨e, -, -, he⟩ := hinside
    rw [hdev] at he
    exact (exists_resolve_eq_iff hn).mp ⟨e, he⟩
  · intro h
    have hentry : IsEntry "stat".toList := by decide
    refine ⟨n, ?_, ?_, ?_⟩
    · rw [hstat, resolve_entry (by decide) hentry, hblock, resolve_entry hn h]
      rfl
    · rw [hblock, resolve_entry hn h]
      rfl
    · rw [hdev, resolve_entry hn h]
      rfl

/-! ## What the paths need -/

/-- What the callers rely on when they call `NameFactory(devname,required)`. -/
structure FitForPaths (devname : String) (required : Bool) : Prop where
  /-- A name is missed only where one is required. -/
  throws : ∀ e, Device.nameFactory devname required = .error e → required = true
  /-- The name is a bare one, that the factory leaves as it is, -/
  bare : ∀ name, Device.nameFactory devname required = .ok name →
    '/' ∉ name.toList ∧ Device.nameFactory name required = .ok name
  /-- it is there when it has to be, -/
  nonempty : ∀ name, Device.nameFactory devname required = .ok name → required = true → name ≠ ""
  /-- and the paths built from it lead where they should. -/
  inside : ∀ name, Device.nameFactory devname required = .ok name → name ≠ "" → PathsInside name
  /-- A directory in front of a bare name is dropped. -/
  behind : ∀ p n : String, (∀ c ∈ (p ++ n).toList, c.toNat ≠ 0) → n ≠ "" → '/' ∉ n.toList →
    p.toList.getLast? = some '/' → Device.nameFactory (p ++ n) required = .ok n

/-- The directory is dropped whatever the text that is asked about. -/
theorem nameFactory_behind {p n : String} (hnul : ∀ c ∈ (p ++ n).toList, c.toNat ≠ 0) (hne : n ≠ "")
    (hn : '/' ∉ n.toList) (hp : p.toList.getLast? = some '/') (required : Bool) :
    Device.nameFactory (p ++ n) required = .ok n := by
  obtain ⟨q, hq⟩ := List.getLast?_eq_some_iff.mp hp
  have hcstr : cstr (p ++ n) = q ++ '/' :: n.toList := by
    rw [← String.ofList_toList (s := p ++ n), cstr_ofList hnul, String.toList_append, hq]
    simp
  have hchars : n.toList ≠ [] := mt String.toList_eq_nil_iff.mp hne
  rw [nameFactory_of_append hcstr hn hchars, String.ofList_toList]

/-- Of a name that the factory returns, what is left to ask is asked of the name. -/
theorem fitForPaths_iff_of_ok {devname name : String} {required : Bool}
    (h : Device.nameFactory devname required = .ok name) :
    FitForPaths devname required ↔
      ('/' ∉ name.toList ∧ Device.nameFactory name required = .ok name) ∧
        (required = true → name ≠ "") ∧ (name ≠ "" → PathsInside name) := by
  constructor
  · intro hfit
    exact ⟨hfit.bare name h, hfit.nonempty name h, hfit.inside name h⟩
  · intro hname
    obtain ⟨hbare, hnonempty, hinside⟩ := hname
    have honly : ∀ m, Device.nameFactory devname required = .ok m → name = m := by
      intro m hm
      exact Except.ok.inj (h.symm.trans hm)
    refine ⟨?_, ?_, ?_, ?_, ?_⟩
    · intro e he
      cases h.symm.trans he
    · intro m hm
      rwa [← honly m hm]
    · intro m hm
      rwa [← honly m hm]
    · intro m hm
      rwa [← honly m hm]
    · intro p n hnul hne hn hp
      exact nameFactory_behind hnul hne hn hp required

/-- Without a name the factory throws, or says so. -/
theorem fitForPaths_of_empty {devname : String} (h : cstr devname = []) (required : Bool) :
    FitForPaths devname required := by
  have heq := nameFactory_of_empty h required
  cases required with
  | false =>
    rw [fitForPaths_iff_of_ok heq]
    exact ⟨⟨by simp, rfl⟩, nofun, fun hne => absurd rfl hne⟩
  | true =>
    have hthrows : ∀ m, Device.nameFactory devname true ≠ .ok m := by
      intro m hm
      cases heq.symm.trans hm
    exact
      { throws := fun _ _ => rfl
        bare := fun m hm => absurd hm (hthrows m)
        nonempty := fun m hm => absurd hm (hthrows m)
        inside := fun m hm => absurd hm (hthrows m)
        behind := fun p n hnul hne hn hp => nameFactory_behind hnul hne hn hp true }

/-- A slash at the end is still there in the name. -/
theorem not_fitForPaths_of_base_nil {devname : String} (hne : cstr devname ≠ [])
    (h : base (cstr devname) = []) (required : Bool) : ¬ FitForPaths devname required := by
  have hslash : '/' ∈ cstr devname := by
    by_contra hslash
    rw [base_of_notMem hslash] at h
    exact hne h
  obtain ⟨p, hp, -⟩ := exists_eq_append_base hslash
  rw [h] at hp
  rw [fitForPaths_iff_of_ok (nameFactory_of_trailing hp required)]
  intro hfit
  apply hfit.1.1
  simp

/-- In any other name there is a component left, and the paths lead where it does. -/
theorem fitForPaths_iff_of_base {devname : String} (h : base (cstr devname) ≠ [])
    (required : Bool) : FitForPaths devname required ↔ IsEntry (base (cstr devname)) := by
  have hslash : '/' ∉ base (cstr devname) := slash_notMem_base _
  have hcstr : cstr (String.ofList (base (cstr devname))) = base (cstr devname) := by
    apply cstr_ofList
    intro c hc
    exact toNat_ne_zero_of_mem_cstr (mem_of_mem_base hc)
  have hagain : Device.nameFactory (String.ofList (base (cstr devname))) required =
      .ok (String.ofList (base (cstr devname))) := by
    have hfactory := @nameFactory_of_notMem (String.ofList (base (cstr devname)))
    rw [hcstr] at hfactory
    exact hfactory h hslash required
  have hname : String.ofList (base (cstr devname)) ≠ "" := by
    intro hname
    apply h
    rw [← String.toList_ofList (l := base (cstr devname)), hname]
    rfl
  rw [fitForPaths_iff_of_ok (nameFactory_of_base h required), ← pathsInside_ofList_iff hslash]
  constructor
  · intro hfit
    obtain ⟨-, -, hinside⟩ := hfit
    exact hinside hname
  · intro hinside
    have hbare : '/' ∉ (String.ofList (base (cstr devname))).toList := by
      rwa [String.toList_ofList]
    exact ⟨⟨hbare, hagain⟩, fun _ => hname, fun _ => hinside⟩

/-- **When a device name is fit for the paths**: when there is none, or when the last component of
the text names an entry, so that the text does not end with a slash and its last component is
neither `.` nor `..`. -/
theorem fit_for_paths_iff (devname : String) (required : Bool) :
    FitForPaths devname required ↔
      cstr devname = [] ∨ IsEntry (base (cstr devname)) := by
  by_cases hempty : cstr devname = []
  · exact iff_of_true (fitForPaths_of_empty hempty required) (Or.inl hempty)
  · rw [or_iff_right hempty]
    by_cases hbase : base (cstr devname) = []
    · apply iff_of_false (not_fitForPaths_of_base_nil hempty hbase required)
      intro hentry
      exact hentry.1 hbase
    · exact fitForPaths_iff_of_base hbase required

/-- With a slash at its end a name passes the check, slash and all. -/
theorem not_fitForPaths_trailing :
    Device.nameFactory "sda/" true = .ok "sda/" ∧ ¬ FitForPaths "sda/" true := by
  have hok : Device.nameFactory "sda/" true = .ok "sda/" := by decide
  refine ⟨hok, ?_⟩
  intro hfit
  exact absurd (hfit.bare _ hok).1 (by decide)

end SysInfo.Storage
