import CivilTime.Proofs.Calculator.Calls

/-!
# Calls that fail

The search path is kept twice, and the zones in two tables. Setting the path and acquiring a zone
check all there is to check before the first of these changes. So a call that fails leaves all of
them as they were, and the order of the recent zones too. Besides this module says which calls fail:
a path that is not a list of absolute paths as texts, and a key that is not known and for which no
zone can be loaded. The two copies of the path are always the same.
-/

namespace CivilTime

namespace Zone.Store

variable {fs : Files} {s : Store} {key : String} {fault : Fault}

/-! ## The two copies of the search path -/

/-- The search path that is shown is the one that zones are looked up by. -/
def PathShown (s : Store) : Prop := s.shown = s.path

theorem pathShown_setPath (s : Store) (path : List String) : (s.setPath path).1.PathShown := rfl

namespace PathShown

theorem get (h : s.PathShown) (fs : Files) (key : String) : (s.get fs key).2.1.PathShown := by
  have hlooked := looked_get fs s key
  generalize (s.get fs key).1 = outcome, (s.get fs key).2.1 = s' at hlooked ⊢
  cases hlooked <;> exact h

theorem acquire (h : s.PathShown) (fs : Files) (key : String) :
    (s.acquire fs key).2.1.PathShown := by
  rcases acquire_cases fs s key with ⟨held, hs⟩ | ⟨hs, -⟩
  · rw [hs]
    exact h.get fs key
  · rw [hs]
    exact h

theorem apply (h : s.PathShown) (a : Action) : (a.apply s).PathShown := by
  cases a with
  | nothing | clear | clearKeys | release => exact h
  | setPath path => exact pathShown_setPath s path
  | setPathFrom text =>
    obtain ⟨path, hpath⟩ := exists_setPathFrom_eq s text
    rw [Action.apply, hpath]
    exact pathShown_setPath s path
  | acquire fs key => exact h.acquire fs key
  | use fs key => exact h.get fs key

theorem after (h : s.PathShown) (actions : List Action) : (s.after actions).PathShown := by
  induction actions generalizing s with
  | nil => exact h
  | cons a actions ih => exact ih (h.apply a)

end PathShown

/-! ## Keys that are not found -/

/-- A key is not found exactly if it is not known and cannot be loaded. -/
theorem get_eq_error_iff :
    (s.get fs key).1 = .error fault ↔ s.find? key = none ∧ Unloadable fs s.path key fault := by
  rw [← load_eq_error_iff]
  cases hknown : s.find? key with
  | some z =>
    rw [get_of_known hknown]
    exact iff_of_false (by rintro ⟨⟩) (by rintro ⟨⟨⟩, -⟩)
  | none =>
    rw [get_of_unknown hknown, map_eq_error, and_iff_right rfl]

/-- Nothing is forgotten between operations. -/
theorem Settled.prune_eq (h : s.Settled) : s.prune = s := by
  rw [prune, List.filter_eq_self.mpr h.inUse]

theorem use_of_error (h : s.Settled) (hget : (s.get fs key).1 = .error fault) :
    (s.use fs key).2.1 = s :=
  (congrArg prune (get_of_error hget)).trans h.prune_eq

theorem acquire_of_error (hget : (s.get fs key).1 = .error fault) :
    (s.acquire fs key).2.1 = s := by
  have hstore := get_of_error hget
  rw [acquire]
  cases hfull : s.get fs key with
  | mk outcome rest =>
    rw [hfull] at hget hstore
    cases hget
    exact hstore

end Zone.Store

open Zone

/-! ## Search paths -/

theorem Zone.Store.checkedPath_cons {item : PathItem} {items : List PathItem}
    {path : List String} :
    checkedPath (item :: items) = .ok path ↔
      item.requireAbsolute = .ok () ∧ ∃ p, item.normalize = .ok p ∧
        ∃ ps, checkedPath items = .ok ps ∧ p :: ps = path := by
  simp only [checkedPath, List.forM, List.mapM_cons, bind_eq_ok, pure_eq_ok]
  constructor
  · rintro ⟨⟨⟩, ⟨⟨⟩, hfirst, hrest⟩, p, hp, ps, hps, rfl⟩
    exact ⟨hfirst, p, hp, ps, ⟨(), hrest, hps⟩, rfl⟩
  · rintro ⟨hfirst, p, hp, ps, ⟨⟨⟩, hrest, hps⟩, rfl⟩
    exact ⟨(), ⟨(), hfirst, hrest⟩, p, hp, ps, hps, rfl⟩

/-- Only texts pass both checks. -/
theorem Zone.PathItem.checked_iff {item : PathItem} {path : String} :
    item.requireAbsolute = .ok () ∧ item.normalize = .ok path ↔
      ∃ p, item = .text p ∧ Path.IsAbsolute p ∧ Path.normalize p = path := by
  cases item with
  | text p =>
    by_cases hp : Path.IsAbsolute p <;> simp [requireAbsolute, normalize, hp]
  | bytes | other => simp [normalize]

/-- The paths that are accepted are texts, all of them absolute. -/
theorem Zone.Store.checkedPath_eq_ok {items : List PathItem} {path : List String} :
    checkedPath items = .ok path ↔
      ∃ paths : List String, items = paths.map .text ∧ (∀ p ∈ paths, Path.IsAbsolute p) ∧
        paths.map Path.normalize = path := by
  induction items generalizing path with
  | nil =>
    constructor
    · rintro ⟨⟩
      exact ⟨[], rfl, List.forall_mem_nil _, rfl⟩
    · rintro ⟨paths, hitems, -, rfl⟩
      rw [List.map_eq_nil_iff.mp hitems.symm]
      rfl
  | cons item items ih =>
    rw [checkedPath_cons]
    constructor
    · rintro ⟨hfirst, p, hp, ps, hrest, rfl⟩
      obtain ⟨first, rfl, habsolute, rfl⟩ := PathItem.checked_iff.mp ⟨hfirst, hp⟩
      obtain ⟨paths, rfl, hpaths, rfl⟩ := ih.mp hrest
      exact ⟨first :: paths, rfl, List.forall_mem_cons.mpr ⟨habsolute, hpaths⟩, rfl⟩
    · rintro ⟨paths, hitems, hpaths, rfl⟩
      obtain ⟨first, rest, rfl, rfl, rfl⟩ := List.map_eq_cons_iff.mp hitems.symm
      rw [List.forall_mem_cons] at hpaths
      obtain ⟨hfirst, hp⟩ := PathItem.checked_iff.mpr ⟨first, rfl, hpaths.1, rfl⟩
      exact ⟨hfirst, _, hp, _, ih.mpr ⟨rest, rfl, hpaths.2, rfl⟩, rfl⟩

theorem pathItem_eq_text_iff {v : Value} {path : String} :
    pathItem v = .text path ↔ v = .text path := by
  cases v <;> simp [pathItem]

theorem map_pathItem_eq_iff {vs : List Value} {paths : List String} :
    vs.map pathItem = paths.map .text ↔ vs = paths.map .text := by
  induction vs generalizing paths with
  | nil => simp
  | cons v vs ih => cases paths <;> simp [pathItem_eq_text_iff, ih]

/-- The value is a list of these paths, which are absolute. -/
def Value.IsPathList (v : Value) (paths : List String) : Prop :=
  (v = .list (paths.map .text) ∨ v = .tuple (paths.map .text)) ∧ ∀ p ∈ paths, Path.IsAbsolute p

/-- Lists of absolute paths are accepted and normalized, and nothing else is. -/
theorem pathOf_eq_ok {v : Value} {path : List String} :
    pathOf v = .ok path ↔ ∃ paths, v.IsPathList paths ∧ paths.map Path.normalize = path := by
  have hlist (vs : List Value) : Store.checkedPath (vs.map pathItem) = .ok path ↔
      ∃ paths : List String, vs = paths.map .text ∧ (∀ p ∈ paths, Path.IsAbsolute p) ∧
        paths.map Path.normalize = path := by
    simp only [Store.checkedPath_eq_ok, map_pathItem_eq_iff]
  cases v with
  | list vs =>
    refine (hlist vs).trans ?_
    simp only [Value.IsPathList, Value.list.injEq, reduceCtorEq, or_false, and_assoc]
  | tuple vs =>
    refine (hlist vs).trans ?_
    simp only [Value.IsPathList, Value.tuple.injEq, reduceCtorEq, false_or, and_assoc]
  | _ =>
    refine iff_of_false (by rintro ⟨⟩) ?_
    rintro ⟨paths, ⟨hv | hv, -⟩, -⟩ <;> cases hv

/-! ## Commands -/

variable {fs : Files} {s : Store} {v : Value} {fault : Fault}

theorem setPath_of_error (h : (setPath s v).1 = .error fault) :
    setPath s v = (.error fault, s, []) := by
  rw [setPath] at h ⊢
  cases hpath : pathOf v with
  | ok path =>
    rw [hpath] at h
    cases h
  | error cause =>
    rw [hpath] at h
    cases h
    rfl

/-- A list of absolute paths is normalized, shown and used, and nothing else changes. -/
theorem setPath_of_isPathList {paths : List String} (h : v.IsPathList paths) :
    setPath s v =
      (.ok (.tuple ((paths.map Path.normalize).map .text)),
        { s with shown := paths.map Path.normalize, path := paths.map Path.normalize },
        [.pathSet (paths.map Path.normalize)]) := by
  rw [setPath, pathOf_eq_ok.mpr ⟨paths, h, rfl⟩]
  rfl

theorem exists_setPath_eq_error_iff :
    (∃ fault, (setPath s v).1 = .error fault) ↔ ¬∃ paths, v.IsPathList paths := by
  have haccepted : (∃ path, pathOf v = .ok path) ↔ ∃ paths, v.IsPathList paths := by
    simp only [pathOf_eq_ok]
    constructor
    · rintro ⟨-, paths, hv, -⟩
      exact ⟨paths, hv⟩
    · rintro ⟨paths, hv⟩
      exact ⟨_, paths, hv, rfl⟩
  rw [← haccepted, setPath]
  cases pathOf v with
  | ok path => exact iff_of_false (by rintro ⟨_, ⟨⟩⟩) (not_not_intro ⟨path, rfl⟩)
  | error cause => exact iff_of_true ⟨cause, rfl⟩ (by rintro ⟨_, ⟨⟩⟩)

theorem acquire_text_eq_error_iff {key : String} :
    (acquire fs s (.text key)).1 = .error fault ↔
      s.find? key = none ∧ Unloadable fs s.path key fault := by
  rw [acquire_text, map_eq_error, Store.get_eq_error_iff]

theorem acquire_of_error (h : (acquire fs s v).1 = .error fault) : (acquire fs s v).2.1 = s := by
  cases htext : textOf? v with
  | none =>
    obtain ⟨cause, hv⟩ := exists_acquire_eq htext
    rw [hv]
  | some key =>
    obtain rfl := textOf?_eq_some htext
    rw [acquire_text, map_eq_error] at h
    exact Store.acquire_of_error h

/-- What failing calls that set the search path or look up a zone do to a store: nothing. -/
structure FailsSafely (fs : Files) (s : Store) : Prop where
  /-- The store as a whole is what it was, so are both copies of the search path, the known zones
  and the recent ones in their order. Nothing is noted. -/
  set_path : ∀ v fault, (ZoneCommand.setPath.perform fs s [v]).1 = .error fault →
    ZoneCommand.setPath.perform fs s [v] = (.error fault, s, [])
  acquire : ∀ v fault, (ZoneCommand.acquire.perform fs s [v]).1 = .error fault →
    (ZoneCommand.acquire.perform fs s [v]).2.1 = s
  use : ∀ key fault, (s.use fs key).1 = .error fault → (s.use fs key).2.1 = s
  /-- A path that is accepted changes the two copies of the path and nothing else. -/
  sets_path : ∀ v paths, v.IsPathList paths → ZoneCommand.setPath.perform fs s [v] =
    (.ok (.tuple ((paths.map Path.normalize).map .text)),
      { s with shown := paths.map Path.normalize, path := paths.map Path.normalize },
      [.pathSet (paths.map Path.normalize)])
  /-- Only lists of absolute paths are accepted. A path that is left out is no failure: it is then
  taken from a text. -/
  refuses_path : ∀ v, v ≠ .nothing →
    ((∃ fault, (ZoneCommand.setPath.perform fs s [v]).1 = .error fault) ↔
      ¬∃ paths, v.IsPathList paths)
  refuses_key : ∀ key fault, (ZoneCommand.acquire.perform fs s [.text key]).1 = .error fault ↔
    s.find? key = none ∧ Unloadable fs s.path key fault
  refuses_other : ∀ v, textOf? v = none →
    ∃ fault, (ZoneCommand.acquire.perform fs s [v]).1 = .error fault
  path_shown : s.shown = s.path

/-- Whatever has been called before, a call that fails to set the search path or to look up a zone
changes nothing, and the search path that is shown is the one that zones are looked up by. -/
theorem failsSafely (calls : List Call) (fs : Files) : FailsSafely fs (storeAfter .empty calls) where
  set_path _ _ h := setPath_of_error h
  acquire _ _ h := acquire_of_error h
  use key fault h := Store.use_of_error (settled_storeAfter calls) h
  sets_path _ _ h := setPath_of_isPathList h
  refuses_path _ _ := exists_setPath_eq_error_iff
  refuses_key _ _ := acquire_text_eq_error_iff
  refuses_other v h := by
    obtain ⟨fault, hv⟩ := exists_acquire_eq h
    exact ⟨fault, congrArg Prod.fst (hv fs _)⟩
  path_shown := by
    have hempty : Store.empty.PathShown := rfl
    rw [storeAfter_eq]
    exact hempty.after _

/-- A zone is in use. A path that is not absolute comes after one that is, and a key is empty. -/
theorem failsSafely_after_use :
    let fs : Files := ⟨[("/A/Bare/Zone", plainFile)], []⟩
    let z : Loaded := ⟨0, "Bare/Zone", ⟨0, 0, [], .fixed 0⟩⟩
    let s := storeAfter .empty
      [.perform fs .setPath [.list [.text "/A"]], .perform fs .acquire [.text "Bare/Zone"]]
    s = ⟨["/A"], ["/A"], [z], [z], [0], 1⟩ ∧
      ZoneCommand.setPath.perform fs s [.list [.text "/B", .text "B"]] =
        (.error .relativePath, s, []) ∧
      (ZoneCommand.acquire.perform fs s [.text ""]).1 = .error (notFound "") ∧
      (ZoneCommand.acquire.perform fs s [.text ""]).2.1 = s := by
  intro fs z s
  have hfile : findFile? fs (Store.unused ["/A"]).path "Bare/Zone" =
      some ("/A/Bare/Zone", plainFile) := by
    decide +kernel
  have hload : load fs (Store.unused ["/A"]).path "Bare/Zone" =
      (.ok z.table, [.loading "Bare/Zone" "/A/Bare/Zone"]) := by
    rw [load, if_neg (not_not_intro valid_bareZone), hfile]
    rfl
  have hs : s = ⟨["/A"], ["/A"], [z], [z], [0], 1⟩ := by
    have hfirst : Store.empty.after [.setPath ["/A"]] = .unused ["/A"] := rfl
    -- Whether a key is valid is not evaluated, which would go through all characters there are.
    calc s
      _ = Store.empty.after [.setPath ["/A"], .acquire fs "Bare/Zone"] := storeAfter_eq _ _
      _ = ((Store.unused ["/A"]).acquire fs "Bare/Zone").2.1 := by
        rw [← hfirst, ← List.singleton_append, Store.after_append, Store.after_acquire]
      _ = ⟨["/A"], ["/A"], [z], [z], [0], 1⟩ := by
        rw [Store.acquire, Store.get, hload]
        rfl
  have hsafe : FailsSafely fs s := failsSafely _ fs
  have hpath : (ZoneCommand.setPath.perform fs s [.list [.text "/B", .text "B"]]).1 =
      .error .relativePath := rfl
  have hunknown : s.find? "" = none := by
    rw [hs]
    rfl
  have hempty : ¬Key.Valid "".toList := by
    rintro ⟨⟨hlength, -⟩, -⟩
    cases hlength
  have hkey := (hsafe.refuses_key "" _).mpr ⟨hunknown, .invalid hempty⟩
  exact ⟨hs, hsafe.set_path _ _ hpath, hkey, hsafe.acquire _ _ hkey⟩

end CivilTime
