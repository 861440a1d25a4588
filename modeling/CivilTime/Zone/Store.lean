import CivilTime.Fault
import CivilTime.Zone.File
import CivilTime.Zone.Path

/-!
# The store of zones

Loading a zone is slow, so a `Store` keeps zones. Two tables do this together.
`recent` holds the zones of the last eight keys that were asked for, in order of
use, the one used longest ago first. `known` has every zone that is still in use,
by `recent` or by someone who holds it; it forgets a zone when neither does.

A key that is not known is loaded: from the first directory of the search path
that has a file for it or, if there is none or it is empty, from the bundle. A
failing operation leaves the store as it was. What an operation did on the way is
told by a list of notes.
-/

namespace CivilTime.Zone

/-- A zone that was loaded. Loading it again gives another one, with another `id`. -/
structure Loaded where
  id : Nat
  key : String
  table : Table
  deriving DecidableEq, Repr

/-- Notes on what operations do. -/
inductive Note where
  | pathSet (path : List String)
  | loading (key path : String)
  | loadingBundled (key : String)
  deriving DecidableEq, Repr

/-- The text of a list of texts, each in quotes. -/
def shownTexts : List String → String
  | [s] => "(" ++ Text.quote s ++ ",)"
  | ss => "(" ++ ", ".intercalate (ss.map Text.quote) ++ ")"

/-- The text of a note. -/
def Note.message : Note → String
  | pathSet path => "Timezone search path set to " ++ shownTexts path
  | loading key path => "Loading timezone " ++ Text.quote key ++ " from " ++ path
  | loadingBundled key => "Loading timezone " ++ Text.quote key ++ " from tzdata"

/-! ## Loading -/

/-- The fault for a key without a zone. -/
def notFound (key : String) : Fault := .zoneNotFound (Text.quote key)

/-- The first directory of a search path with a file for a key: the path of the
file and its content. -/
def findFile? (fs : Files) (path : List String) (key : String) : Option (String × Bytes) :=
  path.findSome? fun directory =>
    (fs.read? (Path.join directory key)).map fun content => (Path.join directory key, content)

/-- Reads a zone from the content of a file. -/
def ofContent (key : String) (content : Bytes) : Outcome Table :=
  if File.hasMagic content then File.read content else .error (notFound key)

/-- Loads the zone of a key from the bundle. -/
def loadBundled (fs : Files) (key : String) : Outcome Table × List Note :=
  match fs.readBundle? key with
  | some content => (ofContent key content, [.loadingBundled key])
  | none => (.error (notFound key), [])

/-- Loads the zone of a key. An empty file counts for nothing, except that no
further directory is tried. -/
def load (fs : Files) (path : List String) (key : String) : Outcome Table × List Note :=
  if ¬ Key.Valid key.toList then (.error (notFound key), [])
  else
    match findFile? fs path key with
    | some (file, content) =>
      if content = [] then
        let (outcome, notes) := loadBundled fs key
        (outcome, .loading key file :: notes)
      else (ofContent key content, [.loading key file])
    | none => loadBundled fs key

/-! ## Search paths -/

/-- What can stand in a list of paths. -/
inductive PathItem where
  | text (path : String)
  | bytes (path : Bytes)
  | other (kind : Kind)
  deriving DecidableEq, Repr

namespace PathItem

/-- Refuses what is not an absolute path. -/
def requireAbsolute : PathItem → Outcome Unit
  | text path => if Path.IsAbsolute path then .ok () else .error .relativePath
  | bytes path => if path.head? = some 0x2f then .ok () else .error .relativePath
  | other kind => .error (.mismatch (.path kind))

/-- The normalized form of an absolute path. -/
def normalize : PathItem → Outcome String
  | text path => .ok (Path.normalize path)
  | bytes _ => .error (.mismatch .bytesPath)
  | other kind => .error (.mismatch (.path kind))

end PathItem

/-! ## The store -/

/-- The zones that are kept, and the search path. It is there twice: once for everyone to see,
and once for looking up zones. -/
structure Store where
  /-- The search path that is shown. -/
  shown : List String
  /-- The search path that zones are looked up by. -/
  path : List String
  known : List Loaded
  recent : List Loaded
  /-- The zones that someone holds, by their `id`. -/
  held : List Nat
  /-- The `id` of the next zone that is loaded. -/
  fresh : Nat
  deriving Repr

namespace Store

/-- The number of zones that are kept for their own sake. -/
def capacity : Nat := 8

/-- The store at the start. -/
def empty : Store := ⟨[], [], [], [], [], 0⟩

/-- The known zone of a key. -/
def find? (s : Store) (key : String) : Option Loaded := s.known.find? (·.key = key)

/-- Whether a zone is in use. -/
def inUse (s : Store) (z : Loaded) : Bool := s.recent.any (·.id = z.id) || s.held.contains z.id

/-- Forgets the zones that are not in use. -/
def prune (s : Store) : Store := { s with known := s.known.filter s.inUse }

/-- Puts a zone at the end of the recent ones. The zone that is already there for
its key stays the one, and the one used longest ago is dropped if there are too
many. -/
def touch (s : Store) (z : Loaded) : Store :=
  let kept := (s.recent.find? (·.key = z.key)).getD z
  let recent := s.recent.filter (·.key ≠ z.key) ++ [kept]
  { s with recent := if recent.length > capacity then recent.drop 1 else recent }

/-- Makes a zone known under a new `id`. -/
def insert (s : Store) (key : String) (table : Table) : Loaded × Store :=
  let z : Loaded := ⟨s.fresh, key, table⟩
  (z, { s with known := s.known ++ [z], fresh := s.fresh + 1 })

/-- The zone of a key, known or loaded. -/
def get (fs : Files) (s : Store) (key : String) : Outcome Loaded × Store × List Note :=
  match s.find? key with
  | some z => (.ok z, s.touch z, [])
  | none =>
    match load fs s.path key with
    | (.ok table, notes) =>
      let (z, s) := s.insert key table
      (.ok z, s.touch z, notes)
    | (.error fault, notes) => (.error fault, s, notes)

/-- The zone of a key for a single use. -/
def use (fs : Files) (s : Store) (key : String) : Outcome Loaded × Store × List Note :=
  let (outcome, s, notes) := s.get fs key
  (outcome, s.prune, notes)

/-- The zone of a key, which is held from then on. -/
def acquire (fs : Files) (s : Store) (key : String) : Outcome Loaded × Store × List Note :=
  let (outcome, s, notes) := s.get fs key
  match outcome with
  | .ok z => (.ok z, { s with held := z.id :: s.held }.prune, notes)
  | .error fault => (.error fault, s, notes)

/-- Forgets all zones. -/
def clear (s : Store) : Store := { s with known := [], recent := [] }

/-- Forgets the zones of some keys. -/
def clearKeys (s : Store) (keys : List String) : Store :=
  { s with
    known := s.known.filter (·.key ∉ keys)
    recent := s.recent.filter (·.key ∉ keys) }.prune

/-- Sets the search path that zones are looked up by. -/
def usePath (s : Store) (path : List String) : Store × List Note :=
  ({ s with path := path }, [.pathSet path])

/-- Sets the search path as it is. What is shown then is what zones are looked up by. -/
def setPath (s : Store) (path : List String) : Store × List Note :=
  let s := { s with shown := path }
  s.usePath s.shown

/-- Checks and normalizes the paths of a new search path. All have to be absolute;
the first that is not is blamed. Paths as bytes only pass that check. -/
def checkedPath (items : List PathItem) : Outcome (List String) := do
  items.forM PathItem.requireAbsolute
  items.mapM PathItem.normalize

/-- Sets the search path to the absolute ones among paths in a text with colons
between them. -/
def setPathFrom (s : Store) (text : String) : Store × List Note :=
  if text.toList = [] then s.setPath []
  else s.setPath (((Text.splitAt ':' text.toList).map String.ofList).filter Path.IsAbsolute)

/-- The keys of the recent zones, the one used longest ago first. -/
def recentKeys (s : Store) : List String := s.recent.map (·.key)

/-- The keys of the known zones, sorted. -/
def knownKeys (s : Store) : List String := (s.known.map (·.key)).mergeSort

end Store

end CivilTime.Zone
