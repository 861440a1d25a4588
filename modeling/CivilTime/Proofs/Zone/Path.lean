import Mathlib.Data.List.Basic
import Mathlib.Data.List.TakeWhile
import CivilTime.Zone.Path

/-!
# Keys stay below a directory

The check of a key looks at characters and short pieces, not at the names between the slashes.
It excludes all the same that a name is empty or leads back, and lets only the last name be a
point. So the path to a key leads down from the directory it is joined to, also where the path
of the directory leads up and down itself.
-/

namespace CivilTime.Zone

open Text

theorem occursIn_iff_infix {piece cs : List Char} : occursIn piece cs ↔ piece <:+: cs := by
  induction cs with
  | nil => rw [occursIn, List.infix_nil, decide_eq_true_eq]
  | cons c cs ih =>
    rw [occursIn, List.infix_cons_iff, Bool.or_eq_true, ih, List.isPrefixOf_iff_prefix]

/-! ## The names in a key -/

namespace Key

variable {key name : List Char} {before after : List (List Char)}

theorem Valid.ne_nil (h : Valid key) : key ≠ [] := List.length_pos_iff.mp h.1.1

theorem Valid.not_infix_points (h : Valid key) : ¬['.', '.'] <:+: key :=
  mt occursIn_iff_infix.mpr h.2.2.1

theorem Valid.not_infix_slashes (h : Valid key) : ¬['/', '/'] <:+: key :=
  mt occursIn_iff_infix.mpr h.2.2.2.1

theorem Valid.not_infix_point (h : Valid key) : ¬['/', '.', '/'] <:+: key :=
  mt occursIn_iff_infix.mpr h.2.2.2.2.1

theorem Valid.head_ne {c : Char} (h : Valid key) (hc : c ∈ ['.', '-', '+', '/']) :
    key.head? ≠ some c :=
  fun hhead => h.2.2.2.2.2.1 c hhead hc

theorem Valid.getLast_ne (h : Valid key) : key.getLast? ≠ some '/' := h.2.2.2.2.2.2

/-- An empty name would be at the start, at the end or between two slashes. -/
theorem Valid.name_ne_nil (h : Valid key) (hname : name ∈ splitAt '/' key) : name ≠ [] := by
  rintro rfl
  obtain ⟨before, after, hsplit⟩ := List.append_of_mem hname
  have hkey := eq_of_splitAt_eq hsplit
  by_cases hbefore : before = []
  · by_cases hafter : after = []
    · rw [if_pos hbefore, if_pos hafter] at hkey
      exact h.ne_nil hkey
    · rw [if_pos hbefore, if_neg hafter] at hkey
      exact h.head_ne (c := '/') (by decide) (by rw [hkey]; rfl)
  · by_cases hafter : after = []
    · rw [if_neg hbefore, if_pos hafter] at hkey
      exact h.getLast_ne (by simp [hkey])
    · rw [if_neg hbefore, if_neg hafter] at hkey
      exact h.not_infix_slashes ⟨['/'].intercalate before, ['/'].intercalate after, by simp [hkey]⟩

theorem Valid.name_ne_points (h : Valid key) (hname : name ∈ splitAt '/' key) :
    name ≠ ['.', '.'] := by
  rintro rfl
  obtain ⟨before, after, hsplit⟩ := List.append_of_mem hname
  exact h.not_infix_points ⟨_, _, (eq_of_splitAt_eq hsplit).symm⟩

/-- A point would be at the start or between two slashes, unless it is the last of several
names. -/
theorem Valid.point_last (h : Valid key) (hsplit : splitAt '/' key = before ++ ['.'] :: after) :
    before ≠ [] ∧ after = [] := by
  have hkey := eq_of_splitAt_eq hsplit
  have hbefore : before ≠ [] := by
    intro hbefore
    rw [if_pos hbefore] at hkey
    exact h.head_ne (c := '.') (by decide) (by rw [hkey]; rfl)
  refine ⟨hbefore, Decidable.byContradiction fun hafter => ?_⟩
  rw [if_neg hbefore, if_neg hafter] at hkey
  exact h.not_infix_point ⟨['/'].intercalate before, ['/'].intercalate after, by simp [hkey]⟩

theorem Valid.not_isAbsolute {key : String} (h : Valid key.toList) : ¬Path.IsAbsolute key :=
  h.head_ne (by decide)

end Key

/-! ## Normal forms -/

namespace Path

variable {directory path : String} {cs : List Char} {name : List Char}

/-- A name that leads down. -/
def IsName (name : List Char) : Prop :=
  name ≠ [] ∧ name ≠ ['.'] ∧ name ≠ ['.', '.'] ∧ '/' ∉ name

/-- Goes on by one name from where some names lead to. Two points lead back by one of them, and
stay at the root. -/
def climb (names : List (List Char)) (name : List Char) : List (List Char) :=
  if name = ['.', '.'] then names.dropLast else names ++ [name]

/-- The names in a path without ways back. -/
def plainNames (path : List Char) : List (List Char) := (names path).foldl climb []

/-- An absolute path without empty names, points and ways back, as the text alone tells. -/
def normalForm (path : String) : String :=
  String.ofList (root path.toList ++ ['/'].intercalate (plainNames path.toList))

theorem mem_names : name ∈ names cs ↔ name ∈ splitAt '/' cs ∧ name ≠ [] ∧ name ≠ ['.'] := by
  simp [names]

theorem names_append (cs ds : List Char) : names (cs ++ '/' :: ds) = names cs ++ names ds := by
  rw [names, splitAt_append, List.filter_append]
  rfl

theorem foldl_climb_append {start more : List (List Char)} (h : ∀ name ∈ more, name ≠ ['.', '.']) :
    more.foldl climb start = start ++ more := by
  induction more generalizing start with
  | nil => rw [List.foldl_nil, List.append_nil]
  | cons name more ih =>
    have hclimb : climb start name = start ++ [name] := if_neg (h name List.mem_cons_self)
    rw [List.foldl_cons, hclimb, ih fun n hn => h n (List.mem_cons_of_mem _ hn), List.append_assoc]
    rfl

theorem isName_of_mem_names (h : name ∈ names cs) (hpoints : name ≠ ['.', '.']) : IsName name := by
  obtain ⟨hsplit, hne, hpoint⟩ := mem_names.mp h
  exact ⟨hne, hpoint, hpoints, not_mem_of_mem_splitAt hsplit⟩

theorem isName_of_mem_climb {start : List (List Char)} (hstart : ∀ n ∈ start, IsName n)
    (hname : name ∈ names cs) : ∀ n ∈ climb start name, IsName n := by
  rw [climb]
  split
  case isTrue => exact fun n hn => hstart n (start.dropLast_sublist.subset hn)
  case isFalse hpoints =>
    intro n hn
    rcases List.mem_append.mp hn with hn | hn
    · exact hstart n hn
    · rw [List.mem_singleton.mp hn]
      exact isName_of_mem_names hname hpoints

theorem isName_of_mem_foldl_climb {start more : List (List Char)}
    (hstart : ∀ n ∈ start, IsName n) (hmore : ∀ n ∈ more, n ∈ names cs) :
    ∀ n ∈ more.foldl climb start, IsName n := by
  induction more generalizing start with
  | nil => exact hstart
  | cons first more ih =>
    obtain ⟨hfirst, hmore⟩ := List.forall_mem_cons.mp hmore
    exact ih (isName_of_mem_climb hstart hfirst) hmore

theorem isName_of_mem_plainNames : ∀ n ∈ plainNames cs, IsName n :=
  isName_of_mem_foldl_climb nofun fun _ hn => hn

/-! ## Joined paths -/

/-- What stands between a directory and a path that is joined to it. -/
def between (directory : List Char) : List Char :=
  if directory = [] ∨ directory.getLast? = some '/' then [] else ['/']

theorem toList_join (h : ¬IsAbsolute path) :
    (join directory path).toList = directory.toList ++ between directory.toList ++ path.toList := by
  rw [join, if_neg h, between]
  split
  case isTrue => simp
  case isFalse => simp

theorem names_join (h : ¬IsAbsolute path) :
    names (join directory path).toList = names directory.toList ++ names path.toList := by
  rw [toList_join h, between]
  split
  case isTrue hends =>
    rcases hends with hnil | hslash
    · rw [hnil]
      rfl
    · obtain ⟨front, hfront⟩ := List.getLast?_eq_some_iff.mp hslash
      rw [hfront, names_append, List.append_nil, List.append_assoc]
      change names (front ++ '/' :: path.toList) = _
      rw [names_append]
      simp [names, splitAt]
  case isFalse => rw [List.append_assoc, List.singleton_append, names_append]

theorem takeWhile_slash_of_not_isAbsolute (h : ¬IsAbsolute path) :
    path.toList.takeWhile (· = '/') = [] := by
  cases hcs : path.toList with
  | nil => rfl
  | cons c cs =>
    rw [IsAbsolute, hcs] at h
    exact List.takeWhile_cons_of_neg (by simpa using h)

/-- A relative path adds no slashes to those that an absolute one starts with. -/
theorem takeWhile_slash_join (hdirectory : IsAbsolute directory) (h : ¬IsAbsolute path) :
    (join directory path).toList.takeWhile (· = '/') =
      directory.toList.takeWhile (· = '/') := by
  rw [toList_join h]
  by_cases hall : ∀ c ∈ directory.toList, c = '/'
  · have hne : directory.toList ≠ [] := by
      intro hnil
      rw [IsAbsolute, hnil] at hdirectory
      cases hdirectory
    have hends : directory.toList.getLast? = some '/' := by
      rw [List.getLast?_eq_some_getLast hne, hall _ (List.getLast_mem hne)]
    have hbetween : between directory.toList = [] := if_pos (.inr hends)
    have hself : directory.toList.takeWhile (· = '/') = directory.toList :=
      List.takeWhile_eq_self_iff.mpr (by simpa using hall)
    rw [hbetween, List.append_nil, List.takeWhile_append_of_pos (by simpa using hall),
      takeWhile_slash_of_not_isAbsolute h, hself, List.append_nil]
  · rw [List.append_assoc, List.takeWhile_append]
    refine if_neg fun hlength => hall fun c hc => ?_
    rw [← (List.takeWhile_prefix _).eq_of_length hlength] at hc
    simpa using List.mem_takeWhile_imp hc

theorem root_join (hdirectory : IsAbsolute directory) (h : ¬IsAbsolute path) :
    root (join directory path).toList = root directory.toList := by
  rw [root, root, takeWhile_slash_join hdirectory h]

theorem plainNames_join (h : ¬IsAbsolute path)
    (hpath : ∀ name ∈ names path.toList, name ≠ ['.', '.']) :
    plainNames (join directory path).toList =
      plainNames directory.toList ++ names path.toList := by
  rw [plainNames, names_join h, List.foldl_append, foldl_climb_append hpath]
  rfl

/-! ## Paths below a directory -/

/-- The normal form of the path goes on from that of the directory, with at least one name. -/
def LiesBelow (directory path : String) : Prop :=
  ∃ more, more ≠ [] ∧ (∀ name ∈ more, IsName name) ∧
    normalForm path = join (normalForm directory) (String.ofList (['/'].intercalate more))

theorem root_cases (cs : List Char) : root cs = ['/'] ∨ root cs = ['/', '/'] := by
  rw [root]
  split
  case isTrue => exact .inr rfl
  case isFalse => exact .inl rfl

theorem between_root (cs : List Char) : between (root cs) = [] := by
  rcases root_cases cs with hroot | hroot
  · rw [hroot]
    decide
  · rw [hroot]
    decide

/-- A directory does not end in a slash if it ends in a name. -/
theorem between_append_name (hne : name ≠ []) (hslash : '/' ∉ name) (front : List Char) :
    between (front ++ name) = ['/'] := by
  refine if_neg ?_
  rintro (hnil | hlast)
  · exact hne (List.append_eq_nil_iff.mp hnil).2
  · rw [List.getLast?_append_of_ne_nil front hne] at hlast
    exact hslash (List.mem_of_getLast? hlast)

theorem not_isAbsolute_ofList (h : cs.head? ≠ some '/') : ¬IsAbsolute (String.ofList cs) := by
  rwa [IsAbsolute, String.toList_ofList]

theorem head?_intercalate_ne {more : List (List Char)} (h : ∀ name ∈ more, IsName name) :
    (['/'].intercalate more).head? ≠ some '/' := by
  cases more with
  | nil => exact nofun
  | cons name more =>
    obtain ⟨hne, -, -, hslash⟩ := h name List.mem_cons_self
    obtain ⟨c, cs, rfl⟩ := List.exists_cons_of_ne_nil hne
    rw [intercalate_cons, List.cons_append, List.head?_cons]
    rintro ⟨⟩
    exact hslash List.mem_cons_self

/-- Names that go on from other names are joined to the path of these. -/
theorem root_append_intercalate {start more : List (List Char)} (hmore : more ≠ [])
    (hstart : ∀ name ∈ start, IsName name) :
    root cs ++ ['/'].intercalate (start ++ more) =
      root cs ++ ['/'].intercalate start ++ between (root cs ++ ['/'].intercalate start) ++
        ['/'].intercalate more := by
  rcases List.eq_nil_or_concat' start with rfl | ⟨init, last, rfl⟩
  · rw [List.intercalate_nil, List.append_nil, between_root, List.append_nil]
    rfl
  · obtain ⟨hne, -, -, hslash⟩ := hstart last (List.mem_append_right _ List.mem_cons_self)
    have hends : ∃ front, ['/'].intercalate (init ++ [last]) = front ++ last := by
      by_cases hinit : init = []
      · exact ⟨[], by rw [hinit]; exact List.intercalate_singleton⟩
      · refine ⟨['/'].intercalate init ++ ['/'], ?_⟩
        rw [intercalate_append hinit (List.cons_ne_nil _ _), List.intercalate_singleton,
          List.append_assoc]
        rfl
    obtain ⟨front, hfront⟩ := hends
    have hbetween := between_append_name hne hslash (root cs ++ front)
    rw [List.append_assoc] at hbetween
    rw [intercalate_append (List.append_ne_nil_of_right_ne_nil _ (List.cons_ne_nil _ _)) hmore,
      hfront, hbetween]
    simp only [List.append_assoc, List.singleton_append]

theorem liesBelow_join (hdirectory : IsAbsolute directory) (h : ¬IsAbsolute path)
    (hne : names path.toList ≠ []) (hpath : ∀ name ∈ names path.toList, name ≠ ['.', '.']) :
    LiesBelow directory (join directory path) := by
  have hnames : ∀ name ∈ names path.toList, IsName name :=
    fun name hname => isName_of_mem_names hname (hpath name hname)
  refine ⟨names path.toList, hne, hnames, String.toList_injective ?_⟩
  rw [toList_join (not_isAbsolute_ofList (head?_intercalate_ne hnames)), normalForm, normalForm,
    root_join hdirectory h, plainNames_join h hpath]
  simp only [String.toList_ofList]
  exact root_append_intercalate hne isName_of_mem_plainNames

theorem toList_join_name (hslash : '/' ∉ name) :
    (join directory (String.ofList name)).toList =
      directory.toList ++ between directory.toList ++ name := by
  rw [toList_join (not_isAbsolute_ofList fun hhead => hslash (List.mem_of_head? hhead)),
    String.toList_ofList]

theorem between_join_name (directory : String) (hne : name ≠ []) (hslash : '/' ∉ name) :
    between (join directory (String.ofList name)).toList = ['/'] := by
  rw [toList_join_name hslash]
  exact between_append_name hne hslash _

/-- Joining name by name gives the path with a slash before each further name. -/
theorem toList_foldl_join {parts : List (List Char)} (hends : between directory.toList = ['/'])
    (hparts : ∀ name ∈ parts, name ≠ [] ∧ '/' ∉ name) :
    ((parts.map String.ofList).foldl join directory).toList =
      directory.toList ++ parts.flatMap ('/' :: ·) := by
  induction parts generalizing directory with
  | nil => rw [List.flatMap_nil, List.append_nil, List.map_nil, List.foldl_nil]
  | cons name parts ih =>
    obtain ⟨hne, hslash⟩ := hparts name List.mem_cons_self
    have hrest := ih (between_join_name directory hne hslash)
      fun n hn => hparts n (List.mem_cons_of_mem _ hn)
    rw [List.map_cons, List.foldl_cons, hrest, toList_join_name hslash, hends, List.flatMap_cons,
      List.append_assoc, List.append_assoc]
    rfl

end Path

theorem Files.foldlM_enter? (fs : Files) {start more : List (List Char)}
    (h : ∀ name ∈ more, name ≠ ['.', '.']) :
    more.foldlM fs.enter? start = some (start ++ more) := by
  induction more generalizing start with
  | nil => rw [List.foldlM_nil, List.append_nil, Option.pure_def]
  | cons name more ih =>
    have henter : fs.enter? start name = some (start ++ [name]) :=
      if_pos (h name List.mem_cons_self)
    rw [List.foldlM_cons, henter, Option.bind_eq_bind, Option.bind_some,
      ih fun n hn => h n (List.mem_cons_of_mem _ hn), List.append_assoc]
    rfl

/-! ## Keys below directories -/

namespace Key

open CivilTime.Zone.Path

variable {directory key : String}

theorem Valid.names_ne_nil (h : Valid key.toList) : names key.toList ≠ [] := by
  cases hsplit : splitAt '/' key.toList with
  | nil => exact absurd hsplit (splitAt_ne_nil _ _)
  | cons name rest =>
    have hmem : name ∈ splitAt '/' key.toList := by
      rw [hsplit]
      exact List.mem_cons_self
    have hpoint : name ≠ ['.'] := by
      rintro rfl
      rw [← List.nil_append (['.'] :: rest)] at hsplit
      obtain ⟨hbefore, -⟩ := h.point_last hsplit
      exact hbefore rfl
    exact List.ne_nil_of_mem (mem_names.mpr ⟨hmem, h.name_ne_nil hmem, hpoint⟩)

theorem Valid.ne_points_of_mem_names (h : Valid key.toList) :
    ∀ name ∈ names key.toList, name ≠ ['.', '.'] :=
  fun _ hname => h.name_ne_points (mem_names.mp hname).1

theorem Valid.liesBelow_join (h : Valid key.toList) (hdirectory : IsAbsolute directory) :
    LiesBelow directory (join directory key) :=
  Path.liesBelow_join hdirectory h.not_isAbsolute h.names_ne_nil h.ne_points_of_mem_names

/-- The names of a key are joined one by one to the same path. -/
theorem Valid.bundled_eq_join (h : Valid key.toList) (directory : String) :
    bundled directory key = join directory key := by
  have hkey := intercalate_splitAt '/' key.toList
  have hparts : ∀ name ∈ splitAt '/' key.toList, name ≠ [] ∧ '/' ∉ name :=
    fun name hname => ⟨h.name_ne_nil hname, not_mem_of_mem_splitAt hname⟩
  rw [bundled]
  cases hsplit : splitAt '/' key.toList with
  | nil => exact absurd hsplit (splitAt_ne_nil _ _)
  | cons name rest =>
    rw [hsplit] at hkey hparts
    rw [intercalate_cons] at hkey
    obtain ⟨hne, hslash⟩ := hparts name List.mem_cons_self
    have hrest := toList_foldl_join (between_join_name directory hne hslash)
      fun n hn => hparts n (List.mem_cons_of_mem _ hn)
    refine String.toList_injective ?_
    rw [List.map_cons, List.foldl_cons, hrest, toList_join_name hslash,
      toList_join h.not_isAbsolute, ← hkey, List.append_assoc]

/-- Where the path to a key leads is below where the directory leads, ways back included. -/
theorem Valid.resolve?_join (h : Valid key.toList) (fs : Files) (directory : String) :
    fs.resolve? (join directory key) = (fs.resolve? directory).map (· ++ names key.toList) := by
  rw [Files.resolve?, Files.resolve?, names_join h.not_isAbsolute, List.foldlM_append]
  cases List.foldlM fs.enter? [] (names directory.toList) with
  | none => rfl
  | some start => exact fs.foldlM_enter? h.ne_points_of_mem_names

/-- All names in a key lead down, so that no path to the key leaves its directory. -/
structure LeadsDown (key : String) : Prop where
  names : ∀ name ∈ splitAt '/' key.toList, name ≠ [] ∧ name ≠ ['.', '.']
  point : ∀ before after, splitAt '/' key.toList = before ++ ['.'] :: after →
    before ≠ [] ∧ after = []
  relative : ¬IsAbsolute key
  listed : ∀ directory, IsAbsolute directory → LiesBelow directory (join directory key)
  bundled : ∀ directory, IsAbsolute directory → LiesBelow directory (bundled directory key)
  /-- The files themselves, in which a way back is gone from where the names before it lead, do not
  lead elsewhere either. -/
  resolved : ∀ (fs : Files) directory, ∃ more ≠ [],
    fs.resolve? (join directory key) = (fs.resolve? directory).map (· ++ more)

theorem Valid.leadsDown (h : Valid key.toList) : LeadsDown key where
  names _ hname := ⟨h.name_ne_nil hname, h.name_ne_points hname⟩
  point _ _ := h.point_last
  relative := h.not_isAbsolute
  listed _ := h.liesBelow_join
  bundled directory hdirectory := by
    rw [h.bundled_eq_join]
    exact h.liesBelow_join hdirectory
  resolved fs directory := ⟨_, h.names_ne_nil, h.resolve?_join fs directory⟩

end Key

end CivilTime.Zone
