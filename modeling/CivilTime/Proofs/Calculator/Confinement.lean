import CivilTime.Proofs.Calculator.Calls
import CivilTime.Proofs.Zone.Path

/-!
# Files that are read

Files are only read for keys that may be looked up. These cannot lead out of the directories they
are joined to, which are absolute whatever has been called before. A key that may not be looked
up is not known either, so that no zone is given for it although known keys are not checked.
-/

namespace CivilTime

namespace Zone

/-! ## What is read for a key -/

/-- Two collections of files have the same for a key, below the directories of a search path and
in the bundle. -/
def Files.AgreeFor (fs fs' : Files) (path : List String) (key : String) : Prop :=
  (∀ d ∈ path, fs.read? (Path.join d key) = fs'.read? (Path.join d key)) ∧
    fs.readBundle? key = fs'.readBundle? key

/-- The note tells of nothing that is read, or of a file for a key that may be looked up. This is
the bundled one or stands below a directory of the search path. -/
def Note.Confined (path : List String) : Note → Prop
  | pathSet _ => True
  | loading key file => Key.Valid key.toList ∧ ∃ d ∈ path, file = Path.join d key
  | loadingBundled key => Key.Valid key.toList

section

variable {fs fs' : Files} {path : List String} {key : String}

theorem findFile?_congr
    (h : ∀ d ∈ path, fs.read? (Path.join d key) = fs'.read? (Path.join d key)) :
    findFile? fs path key = findFile? fs' path key := by
  rw [findFile?, findFile?]
  induction path with
  | nil => rfl
  | cons d path ih =>
    obtain ⟨hfirst, hrest⟩ := List.forall_mem_cons.mp h
    rw [List.findSome?_cons, List.findSome?_cons, hfirst, ih hrest]

/-- Nothing else matters than what there is for the key, and only if it may be looked up. -/
theorem load_congr (h : Key.Valid key.toList → fs.AgreeFor fs' path key) :
    load fs path key = load fs' path key := by
  by_cases hkey : Key.Valid key.toList
  · obtain ⟨hfiles, hbundle⟩ := h hkey
    have hbundled : loadBundled fs key = loadBundled fs' key := by
      rw [loadBundled, loadBundled, hbundle]
    rw [load, load, findFile?_congr hfiles, hbundled]
  · rw [load_of_not_valid hkey, load_of_not_valid hkey]

theorem confined_of_mem_loadBundled (hkey : Key.Valid key.toList) :
    ∀ note ∈ (loadBundled fs key).2, note.Confined path := by
  rw [loadBundled]
  split
  case h_1 => exact List.forall_mem_singleton.mpr hkey
  case h_2 => exact List.forall_mem_nil _

theorem confined_of_mem_load (fs : Files) (path : List String) (key : String) :
    ∀ note ∈ (load fs path key).2, note.Confined path := by
  by_cases hkey : Key.Valid key.toList
  · cases hfile : findFile? fs path key with
    | none =>
      rw [load, if_neg (not_not_intro hkey), hfile]
      exact confined_of_mem_loadBundled hkey
    | some found =>
      obtain ⟨file, content⟩ := found
      obtain ⟨before, directory, after, rfl, ⟨-, hjoin⟩, -⟩ := findFile?_eq_some_iff.mp hfile
      have hfirst : (Note.loading key file).Confined (before ++ directory :: after) :=
        ⟨hkey, directory, List.mem_append_right _ List.mem_cons_self, hjoin.symm⟩
      rw [load, if_neg (not_not_intro hkey), hfile]
      dsimp only
      split
      case isTrue => exact List.forall_mem_cons.mpr ⟨hfirst, confined_of_mem_loadBundled hkey⟩
      case isFalse => exact List.forall_mem_singleton.mpr hfirst
  · rw [load_of_not_valid hkey]
    exact List.forall_mem_nil _

namespace Store

variable {s : Store}

theorem get_congr (h : Key.Valid key.toList → fs.AgreeFor fs' s.path key) :
    s.get fs key = s.get fs' key := by
  rw [get, get, load_congr h]

theorem confined_of_mem_get (fs : Files) (s : Store) (key : String) :
    ∀ note ∈ (s.get fs key).2.2, note.Confined s.path := by
  cases hknown : s.find? key with
  | some z =>
    rw [get_of_known hknown]
    exact List.forall_mem_nil _
  | none =>
    have hload := confined_of_mem_load fs s.path key
    rw [get, hknown]
    cases hloaded : load fs s.path key with
    | mk outcome notes =>
      rw [hloaded] at hload
      cases outcome with
      | ok table => exact hload
      | error fault => exact hload

/-- Known keys are not checked, but they have been. -/
theorem Coherent.get_of_not_valid (h : s.Coherent) (hkey : ¬Key.Valid key.toList) (fs : Files) :
    s.get fs key = (.error (notFound key), s, []) := by
  have hunknown : s.find? key = none := by
    refine find?_eq_none_iff.mpr fun z hz hsame => hkey ?_
    rw [← hsame]
    exact h.valid_known z hz
  rw [Store.get, hunknown, load_of_not_valid hkey]

theorem path_get (fs : Files) (s : Store) (key : String) : (s.get fs key).2.1.path = s.path := by
  have hlooked := looked_get fs s key
  generalize (s.get fs key).1 = outcome, (s.get fs key).2.1 = s' at hlooked ⊢
  cases hlooked <;> rfl

theorem path_acquire (fs : Files) (s : Store) (key : String) :
    (s.acquire fs key).2.1.path = s.path := by
  rcases acquire_cases fs s key with ⟨held, hs⟩ | ⟨hs, -⟩
  · rw [hs]
    exact path_get fs s key
  · rw [hs]

end Store

end

/-! ## Search paths -/

/-- All directories of the search path are absolute. -/
def Store.PathAbsolute (s : Store) : Prop := ∀ d ∈ s.path, Path.IsAbsolute d

theorem Path.isAbsolute_normalize (path : String) : IsAbsolute (normalize path) := by
  rw [IsAbsolute, normalize, String.toList_ofList]
  rcases root_cases path.toList with hroot | hroot
  · rw [hroot]
    rfl
  · rw [hroot]
    rfl

theorem gives_checkedPath (items : List PathItem) :
    Gives (Store.checkedPath items) (∀ d ∈ ·, Path.IsAbsolute d) := by
  refine gives_then fun _ => gives_mapM fun item _ => ?_
  cases item with
  | text path => exact gives_ok.mpr (Path.isAbsolute_normalize path)
  | bytes | other => exact gives_error

theorem Store.pathAbsolute_setPathFrom (s : Store) (text : String) :
    (s.setPathFrom text).1.PathAbsolute := by
  rw [setPathFrom]
  split
  case isTrue => exact List.forall_mem_nil _
  case isFalse => exact fun d hd => by simpa using (List.mem_filter.mp hd).2

end Zone

open Zone

theorem gives_pathOf (v : Value) : Gives (pathOf v) (∀ d ∈ ·, Path.IsAbsolute d) := by
  rw [pathOf.eq_def]
  split
  case h_1 => exact gives_error
  case h_2 => exact gives_error
  case h_3 => exact gives_then fun vs => gives_checkedPath _

/-! ## Calls -/

/-- What an effect on a store has to do with the files: it depends on those for keys that may be
looked up, tells of nothing else, and lets the directories stay absolute. -/
structure Restrained (s : Store) (effect : Files → Effect) : Prop where
  congr : ∀ fs fs', (∀ key, Key.Valid key.toList → fs.AgreeFor fs' s.path key) →
    effect fs = effect fs'
  told : ∀ fs, ∀ note ∈ (effect fs).2.2, note.Confined s.path
  path : s.PathAbsolute → ∀ fs, (effect fs).2.1.PathAbsolute

section

variable {s : Store}

theorem restrained_of_const {effect : Effect}
    (hpath : s.PathAbsolute → effect.2.1.PathAbsolute)
    (hnotes : ∀ note ∈ effect.2.2, note.Confined s.path) : Restrained s fun _ => effect :=
  ⟨fun _ _ _ => rfl, fun _ => hnotes, fun h _ => hpath h⟩

theorem restrained_of_error (fault : Fault) : Restrained s fun _ => (.error fault, s, []) :=
  restrained_of_const id (List.forall_mem_nil _)

/-- An effect may depend on the look-up of a key. -/
theorem restrained_of_get {effect : Files → Effect} (key : String)
    (hcongr : ∀ fs fs', s.get fs key = s.get fs' key → effect fs = effect fs')
    (hpath : ∀ fs, (effect fs).2.1.path = s.path)
    (hnotes : ∀ fs, (effect fs).2.2 = (s.get fs key).2.2) : Restrained s effect where
  congr fs fs' h := hcongr fs fs' (Store.get_congr (h key))
  told fs := by
    rw [hnotes]
    exact Store.confined_of_mem_get fs s key
  path h fs := by
    rw [Store.PathAbsolute, hpath]
    exact h

theorem restrained_setPath (s : Store) (v : Value) : Restrained s fun _ => setPath s v := by
  rw [setPath]
  cases hpath : pathOf v with
  | ok path =>
    exact restrained_of_const (fun _ => gives_pathOf v path hpath)
      (List.forall_mem_singleton.mpr trivial)
  | error fault => exact restrained_of_error fault

theorem restrained_setPathFrom (s : Store) (entries : List Value) :
    Restrained s fun _ => setPathFrom s entries := by
  obtain ⟨path, hpath⟩ :=
    Store.exists_setPathFrom_eq s (":".intercalate (entries.filterMap textOf?))
  refine restrained_of_const (fun _ => s.pathAbsolute_setPathFrom _) ?_
  rw [setPathFrom, hpath]
  exact List.forall_mem_singleton.mpr trivial

theorem restrained_acquire (s : Store) (v : Value) : Restrained s fun fs => acquire fs s v := by
  cases htext : textOf? v with
  | none =>
    obtain ⟨fault, hfault⟩ := exists_acquire_eq htext
    simp only [hfault]
    exact restrained_of_error fault
  | some key =>
    obtain rfl := textOf?_eq_some htext
    refine restrained_of_get key (fun fs fs' h => ?_) (fun fs => Store.path_acquire fs s key) ?_
    · rw [acquire, acquire, Store.acquire, Store.acquire, h]
    · intro fs
      rw [acquire, Store.acquire]
      cases s.get fs key with
      | mk outcome rest => cases outcome <;> rfl

theorem restrained_clear (s : Store) (args : List Value) : Restrained s fun _ => clear s args := by
  cases args with
  | nil => exact restrained_of_const id (List.forall_mem_nil _)
  | cons v rest =>
    cases v <;> cases rest <;> exact restrained_of_const id (List.forall_mem_nil _)

theorem restrained_localize (s : Store) (t : LocalDateTime) (policy tz : Value) :
    Restrained s fun fs => localize fs s t policy tz := by
  cases tz with
  | text key =>
    refine restrained_of_get key (fun fs fs' h => ?_) (fun fs => Store.path_get fs s key)
      fun fs => rfl
    rw [localize, localize, Store.use, Store.use, h]
  | _ => exact restrained_of_const id (List.forall_mem_nil _)

theorem restrained_perform (s : Store) (command : ZoneCommand) (args : List Value) :
    Restrained s fun fs => command.perform fs s args := by
  fun_cases ZoneCommand.perform ⟨[], []⟩ s command args with
  | case1 v => exact restrained_setPath s v
  | case2 entries => exact restrained_setPathFrom s entries
  | case3 v => exact restrained_acquire s v
  | case4 => exact restrained_clear s args
  | case5 t tz => exact restrained_localize s t _ tz
  | case6 t tz policy => exact restrained_localize s t policy tz
  | case7 =>
    have hwrong (fs : Files) : command.perform fs s args = (.error .arguments, s, []) := by
      rw [ZoneCommand.perform] <;> assumption
    simp only [hwrong]
    exact restrained_of_error .arguments

/-- Whatever is called, the directories stay absolute. -/
theorem pathAbsolute_storeAfter (h : s.PathAbsolute) (calls : List Call) :
    (storeAfter s calls).PathAbsolute := by
  induction calls generalizing s with
  | nil => exact h
  | cons call calls ih =>
    rw [storeAfter, List.foldl_cons]
    refine ih ?_
    cases call with
    | perform fs command args => exact (restrained_perform s command args).path h fs
    | release ids => exact h

end

/-- What a store reads is confined to the files for keys that may be looked up. -/
structure ReadsConfined (s : Store) : Prop where
  absolute : ∀ directory ∈ s.path, Path.IsAbsolute directory
  /-- Any other key is refused, whatever files there are and whatever is known. -/
  refused : ∀ key, ¬Key.Valid key.toList → ∀ fs, s.get fs key = (.error (notFound key), s, [])
  /-- Of all files only those for the key make a difference. -/
  depends : ∀ key fs fs', fs.AgreeFor fs' s.path key → s.get fs key = s.get fs' key
  commands : ∀ (command : ZoneCommand) args, Restrained s fun fs => command.perform fs s args

/-- The keys that may be looked up lead down from any directory, and only for them files are read,
whatever has been called before. -/
theorem reads_confined :
    (∀ key : String, Key.Valid key.toList → Key.LeadsDown key) ∧
    ∀ path, (∀ directory ∈ path, Path.IsAbsolute directory) →
      ∀ calls, ReadsConfined (storeAfter (.unused path) calls) := by
  refine ⟨fun key => Key.Valid.leadsDown, fun path hpath calls => ?_⟩
  have hcoherent : (storeAfter (.unused path) calls).Coherent := by
    rw [storeAfter_eq]
    exact (Store.settled_after (Store.settled_unused path) _).coherent
  exact ⟨pathAbsolute_storeAfter (s := .unused path) hpath calls,
    fun _ hkey => hcoherent.get_of_not_valid hkey, fun _ _ _ h => Store.get_congr fun _ => h,
    fun command args => restrained_perform _ command args⟩

/-- A directory with a way back, a key below it, and a key that would lead out of it. -/
theorem reads_confined_way_back :
    let s := storeAfter .empty [.perform ⟨[], []⟩ .setPath [.list [.text "/A/../B"]]]
    s.path = ["/A/../B"] ∧
      (Path.LiesBelow "/A/../B" (Path.join "/A/../B" "Bare/Zone") ∧
        Path.normalForm (Path.join "/A/../B" "Bare/Zone") = "/B/Bare/Zone") ∧
      s.get ⟨[("/A/Zone", plainFile)], []⟩ "../A/Zone" =
        (.error (notFound "../A/Zone"), s, []) := by
  intro s
  obtain ⟨hkeys, hcalls⟩ := reads_confined
  have hinvalid : ¬Key.Valid "../A/Zone".toList := by
    intro hkey
    exact hkey.head_ne (c := '.') (by decide) (by decide +kernel)
  refine ⟨by decide +kernel, ⟨(hkeys "Bare/Zone" valid_bareZone).listed _ (by decide +kernel),
    by decide +kernel⟩, ?_⟩
  exact (hcalls [] (List.forall_mem_nil _) _).refused _ hinvalid _

end CivilTime
