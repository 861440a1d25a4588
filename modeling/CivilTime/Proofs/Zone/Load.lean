import CivilTime.Proofs.Zone.File
import CivilTime.Zone.Store

/-!
# Where zones are loaded from

A key that is not known is looked for in the directories of the search path, one after the
other, and then in the bundle. The first file for the key should settle whether there is a
zone, whatever the file holds. It does so unless it is empty and the bundle has a zone file
for the key: this is loaded then.
-/

namespace CivilTime.Zone

variable {fs : Files} {path : List String} {key file : String} {content : Bytes}

/-! ## Contents -/

theorem ofContent_of_hasMagic (h : File.hasMagic content) :
    ofContent key content = File.read content :=
  if_pos h

/-- Some content is said to be no zone exactly if it does not start as zone files do. -/
theorem ofContent_eq_notFound_iff :
    ofContent key content = .error (notFound key) ↔ ¬File.hasMagic content := by
  constructor
  · intro herror hmagic
    rw [ofContent_of_hasMagic hmagic] at herror
    obtain ⟨flaw, hflaw⟩ := File.failsWith_read content _ herror
    cases hflaw
  · intro hmagic
    exact if_neg hmagic

/-! ## Directories and the bundle -/

/-- The first of the directories with a file for the key decides. -/
theorem findFile?_eq_some_iff :
    findFile? fs path key = some (file, content) ↔
      ∃ before directory after, path = before ++ directory :: after ∧
        (fs.read? (Path.join directory key) = some content ∧ Path.join directory key = file) ∧
        ∀ d ∈ before, fs.read? (Path.join d key) = none := by
  simp only [findFile?, List.findSome?_eq_some_iff, Option.map_eq_some_iff, Option.map_eq_none_iff,
    Prod.mk.injEq]
  constructor
  · rintro ⟨before, directory, after, hpath, ⟨found, hread, rfl, rfl⟩, hbefore⟩
    exact ⟨before, directory, after, hpath, ⟨hread, rfl⟩, hbefore⟩
  · rintro ⟨before, directory, after, hpath, ⟨hread, rfl⟩, hbefore⟩
    exact ⟨before, directory, after, hpath, ⟨content, hread, rfl, rfl⟩, hbefore⟩

theorem findFile?_eq_none_iff :
    findFile? fs path key = none ↔ ∀ d ∈ path, fs.read? (Path.join d key) = none := by
  simp only [findFile?, List.findSome?_eq_none_iff, Option.map_eq_none_iff]

theorem loadBundled_of_some (h : fs.readBundle? key = some content) :
    (loadBundled fs key).1 = ofContent key content := by
  rw [loadBundled, h]

theorem loadBundled_of_none (h : fs.readBundle? key = none) :
    (loadBundled fs key).1 = .error (notFound key) := by
  rw [loadBundled, h]

theorem load_of_not_valid (h : ¬Key.Valid key.toList) :
    load fs path key = (.error (notFound key), []) :=
  if_pos h

theorem valid_of_load {table : Table} (h : (load fs path key).1 = .ok table) :
    Key.Valid key.toList := by
  by_cases hkey : Key.Valid key.toList
  · exact hkey
  · rw [load_of_not_valid hkey] at h
    cases h

theorem load_of_file (hkey : Key.Valid key.toList) (h : findFile? fs path key = some (file, content)) :
    (load fs path key).1 = if content = [] then (loadBundled fs key).1 else ofContent key content := by
  rw [load, if_neg (not_not_intro hkey), h]
  dsimp only
  split
  case isTrue => rfl
  case isFalse => rfl

theorem load_of_no_file (hkey : Key.Valid key.toList) (h : findFile? fs path key = none) :
    (load fs path key).1 = (loadBundled fs key).1 := by
  rw [load, if_neg (not_not_intro hkey), h]

theorem load_of_bundle (hkey : Key.Valid key.toList) (hfile : findFile? fs path key = none)
    (hbundle : fs.readBundle? key = some content) : (load fs path key).1 = ofContent key content :=
  (load_of_no_file hkey hfile).trans (loadBundled_of_some hbundle)

/-! ## The order -/

/-- The first directory with a file for the key decides about the zone, whatever later
directories and the bundle have for it. If there is no such directory, the bundle decides. -/
structure FollowsOrder (fs : Files) (path : List String) (key : String)
    (outcome : Outcome Table) : Prop where
  listed : ∀ before directory after content, path = before ++ directory :: after →
    (∀ d ∈ before, fs.read? (Path.join d key) = none) →
    fs.read? (Path.join directory key) = some content → outcome = ofContent key content
  bundled : (∀ d ∈ path, fs.read? (Path.join d key) = none) →
    ∀ content, fs.readBundle? key = some content → outcome = ofContent key content
  missing : (∀ d ∈ path, fs.read? (Path.join d key) = none) →
    fs.readBundle? key = none → outcome = .error (notFound key)

/-- The first file for the key is empty, and the bundle has a zone file for it. -/
def StandsIn (fs : Files) (path : List String) (key : String) : Prop :=
  (∃ file, findFile? fs path key = some (file, [])) ∧
    ∃ content, fs.readBundle? key = some content ∧ File.hasMagic content

theorem followsOrder_iff_of_file {outcome : Outcome Table}
    (h : findFile? fs path key = some (file, content)) :
    FollowsOrder fs path key outcome ↔ outcome = ofContent key content := by
  constructor
  · intro hfollows
    obtain ⟨before, directory, after, hpath, ⟨hread, -⟩, hbefore⟩ := findFile?_eq_some_iff.mp h
    exact hfollows.listed before directory after content hpath hbefore hread
  · rintro rfl
    have hlisted : ¬∀ d ∈ path, fs.read? (Path.join d key) = none := by
      rw [← findFile?_eq_none_iff, h]
      exact nofun
    refine ⟨?_, fun hnone => absurd hnone hlisted, fun hnone => absurd hnone hlisted⟩
    intro before directory after content' hpath hbefore hread
    have hfile := findFile?_eq_some_iff.mpr ⟨before, directory, after, hpath, ⟨hread, rfl⟩, hbefore⟩
    obtain ⟨-, rfl⟩ := Prod.mk.inj (Option.some.inj (h.symm.trans hfile))
    rfl

theorem followsOrder_of_no_file (h : findFile? fs path key = none) :
    FollowsOrder fs path key (loadBundled fs key).1 := by
  refine ⟨?_, fun _ content => loadBundled_of_some, fun _ => loadBundled_of_none⟩
  intro before directory after content hpath hbefore hread
  have hfile := findFile?_eq_some_iff.mpr ⟨before, directory, after, hpath, ⟨hread, rfl⟩, hbefore⟩
  cases h.symm.trans hfile

/-- An empty file is no zone. What the bundle gives instead is no zone either exactly if it has
no zone file. -/
theorem loadBundled_eq_notFound_iff :
    (loadBundled fs key).1 = .error (notFound key) ↔
      ¬∃ content, fs.readBundle? key = some content ∧ File.hasMagic content := by
  cases hbundle : fs.readBundle? key with
  | none => exact iff_of_true (loadBundled_of_none hbundle) nofun
  | some content =>
    rw [loadBundled_of_some hbundle, ofContent_eq_notFound_iff]
    simp only [Option.some.injEq, exists_eq_left']

theorem load_followsOrder_iff (hkey : Key.Valid key.toList) :
    FollowsOrder fs path key (load fs path key).1 ↔ ¬StandsIn fs path key := by
  cases hfile : findFile? fs path key with
  | none =>
    rw [load_of_no_file hkey hfile]
    refine iff_of_true (followsOrder_of_no_file hfile) ?_
    rintro ⟨⟨file, hsome⟩, -⟩
    cases hfile.symm.trans hsome
  | some found =>
    obtain ⟨file, content⟩ := found
    rw [followsOrder_iff_of_file hfile, load_of_file hkey hfile]
    by_cases hempty : content = []
    · subst hempty
      have hnothing : ofContent key [] = .error (notFound key) :=
        ofContent_eq_notFound_iff.mpr (by decide)
      rw [if_pos rfl, hnothing, loadBundled_eq_notFound_iff, StandsIn, hfile]
      simp
    · rw [if_neg hempty]
      refine iff_of_true rfl ?_
      rintro ⟨⟨file', hsome⟩, -⟩
      cases hfile.symm.trans hsome
      exact hempty rfl

/-- A zone file of version 1 without transitions, for universal time. -/
def plainFile : Bytes :=
  File.magic ++ List.replicate 35 0 ++ [1, 0, 0, 0, 4] ++ List.replicate 6 0 ++ [0x55, 0x54, 0x43, 0]

theorem valid_bareZone : Key.Valid "Bare/Zone".toList := by
  have hchars : "Bare/Zone".toList = ['B', 'a', 'r', 'e', '/', 'Z', 'o', 'n', 'e'] := by
    decide +kernel
  rw [hchars]
  refine ⟨by decide, List.all_eq_true.mp (by decide), by decide, by decide, by decide, ?_, by decide⟩
  rintro c ⟨⟩
  decide

theorem ofContent_plainFile : ofContent key plainFile = .ok ⟨0, 0, [], .fixed 0⟩ := rfl

/-! ## Keys without a zone -/

/-- What the zone of a key is read from: the first file for it or, if there is none or it is empty,
the file of the bundle. -/
def source? (fs : Files) (path : List String) (key : String) : Option Bytes :=
  match findFile? fs path key with
  | some (_, content) => if content = [] then fs.readBundle? key else some content
  | none => fs.readBundle? key

theorem loadBundled_eq_elim :
    (loadBundled fs key).1 = (fs.readBundle? key).elim (.error (notFound key)) (ofContent key) := by
  cases hbundle : fs.readBundle? key with
  | none => exact loadBundled_of_none hbundle
  | some content => exact loadBundled_of_some hbundle

theorem load_of_valid (hkey : Key.Valid key.toList) :
    (load fs path key).1 =
      (source? fs path key).elim (.error (notFound key)) (ofContent key) := by
  cases hfile : findFile? fs path key with
  | none => rw [load_of_no_file hkey hfile, loadBundled_eq_elim, source?, hfile]
  | some found =>
    obtain ⟨file, content⟩ := found
    rw [load_of_file hkey hfile, loadBundled_eq_elim, source?, hfile]
    dsimp only
    split <;> rfl

/-- Why the zone of a key cannot be loaded. -/
inductive Unloadable (fs : Files) (path : List String) (key : String) : Fault → Prop
  | invalid (hkey : ¬Key.Valid key.toList) : Unloadable fs path key (notFound key)
  | missing (hkey : Key.Valid key.toList) (hsource : source? fs path key = none) :
      Unloadable fs path key (notFound key)
  | foreign {content : Bytes} (hkey : Key.Valid key.toList)
      (hsource : source? fs path key = some content) (hmagic : ¬File.hasMagic content) :
      Unloadable fs path key (notFound key)
  | malformed {content : Bytes} {fault : Fault} (hkey : Key.Valid key.toList)
      (hsource : source? fs path key = some content) (hmagic : File.hasMagic content)
      (hread : File.read content = .error fault) : Unloadable fs path key fault

/-- Loading fails for these reasons only, and always for one of them. -/
theorem load_eq_error_iff {fault : Fault} :
    (load fs path key).1 = .error fault ↔ Unloadable fs path key fault := by
  constructor
  · intro hload
    by_cases hkey : Key.Valid key.toList
    · rw [load_of_valid hkey] at hload
      cases hsource : source? fs path key with
      | none =>
        rw [hsource] at hload
        cases hload
        exact .missing hkey hsource
      | some content =>
        rw [hsource, Option.elim_some] at hload
        by_cases hmagic : File.hasMagic content
        · rw [ofContent_of_hasMagic hmagic] at hload
          exact .malformed hkey hsource hmagic hload
        · rw [ofContent_eq_notFound_iff.mpr hmagic] at hload
          cases hload
          exact .foreign hkey hsource hmagic
    · rw [load_of_not_valid hkey] at hload
      cases hload
      exact .invalid hkey
  · intro hreason
    cases hreason with
    | invalid hkey => rw [load_of_not_valid hkey]
    | missing hkey hsource => rw [load_of_valid hkey, hsource, Option.elim_none]
    | foreign hkey hsource hmagic =>
      rw [load_of_valid hkey, hsource, Option.elim_some, ofContent_eq_notFound_iff.mpr hmagic]
    | malformed hkey hsource hmagic hread =>
      rw [load_of_valid hkey, hsource, Option.elim_some, ofContent_of_hasMagic hmagic, hread]

/-! ## Keys that are not known -/

namespace Store

variable {s : Store}

theorem get_of_unknown (h : s.find? key = none) :
    (s.get fs key).1 = Loaded.mk s.fresh key <$> (load fs s.path key).1 := by
  rw [get, h]
  dsimp only
  cases load fs s.path key with
  | mk outcome notes => cases outcome <;> rfl

theorem acquire_fst (s : Store) (fs : Files) (key : String) :
    (s.acquire fs key).1 = (s.get fs key).1 := by
  rw [acquire]
  cases s.get fs key with
  | mk outcome rest => cases outcome <;> rfl

/-- The zone of a key that is not known is loaded in the order of the search path and the
bundle, exactly unless the bundle stands in for an empty file. -/
theorem acquire_followsOrder_iff (hkey : Key.Valid key.toList) (hnew : s.find? key = none) :
    (s.acquire fs key).1 = Loaded.mk s.fresh key <$> (load fs s.path key).1 ∧
      (FollowsOrder fs s.path key (load fs s.path key).1 ↔ ¬StandsIn fs s.path key) := by
  rw [acquire_fst]
  exact ⟨get_of_unknown hnew, load_followsOrder_iff hkey⟩

/-- In the second directory something else lies in place of the zone, so that the bundle is not
asked. -/
theorem acquire_followsOrder_iff_foreign_file :
    let fs : Files := ⟨[("/B/Bare/Zone", [0x6e, 0x6f])], [("Bare/Zone", plainFile)]⟩
    let s : Store := { Store.empty with path := ["/A", "/B"] }
    (s.acquire fs "Bare/Zone").1 = .error (notFound "Bare/Zone") := by
  intro fs s
  have hfile : findFile? fs s.path "Bare/Zone" = some ("/B/Bare/Zone", [0x6e, 0x6f]) := by
    decide +kernel
  have hnew : s.find? "Bare/Zone" = none := rfl
  obtain ⟨hget, horder : FollowsOrder fs _ _ _ ↔ _⟩ := acquire_followsOrder_iff valid_bareZone hnew
  have hfollows := horder.mpr fun ⟨⟨_, hempty⟩, _⟩ => nomatch hfile.symm.trans hempty
  rw [hget, (followsOrder_iff_of_file hfile).mp hfollows, ofContent_eq_notFound_iff.mpr (by decide)]
  rfl

/-- The file in the only directory is empty, and the zone of the bundle is loaded. -/
theorem acquire_empty_file_replaced :
    let fs : Files := ⟨[("/A/Bare/Zone", [])], [("Bare/Zone", plainFile)]⟩
    let s : Store := { Store.empty with path := ["/A"] }
    (Key.Valid "Bare/Zone".toList ∧ s.find? "Bare/Zone" = none) ∧
      fs.read? (Path.join "/A" "Bare/Zone") = some [] ∧
      (s.acquire fs "Bare/Zone").1 = .ok ⟨0, "Bare/Zone", ⟨0, 0, [], .fixed 0⟩⟩ ∧
      ¬FollowsOrder fs s.path "Bare/Zone" (load fs s.path "Bare/Zone").1 := by
  intro fs s
  have hread : fs.read? (Path.join "/A" "Bare/Zone") = some [] := by decide +kernel
  have hfile : findFile? fs s.path "Bare/Zone" = some ("/A/Bare/Zone", []) := by decide +kernel
  have hbundle : fs.readBundle? "Bare/Zone" = some plainFile := by decide +kernel
  have hload : (load fs s.path "Bare/Zone").1 = .ok ⟨0, 0, [], .fixed 0⟩ := by
    rw [load_of_file valid_bareZone hfile, if_pos rfl, loadBundled_of_some hbundle, ofContent_plainFile]
  refine ⟨⟨valid_bareZone, rfl⟩, hread, ?_, fun hfollows => ?_⟩
  · rw [acquire_fst, get_of_unknown rfl, hload]
    rfl
  · have hnothing := hfollows.listed [] "/A" [] [] rfl nofun hread
    rw [hload] at hnothing
    cases hnothing

end Store

end CivilTime.Zone
