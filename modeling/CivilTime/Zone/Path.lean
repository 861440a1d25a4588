import CivilTime.Text.Split
import CivilTime.Bytes

/-!
# Keys and paths

Zone files are found by a key such as `Europe/Paris` below the directories of a
search path, and in a bundle of files that has one for each key. Only keys that
cannot lead out of a directory are looked up at all. The directories of a search
path may be given by any path, also by one with two points for the way back.
-/

namespace CivilTime.Zone

open Text

/-- Whether some characters occur in a text one after the other. -/
def occursIn (piece : List Char) : List Char → Bool
  | [] => piece = []
  | c :: cs => piece.isPrefixOf (c :: cs) || occursIn piece cs

namespace Key

/-- The characters of keys: ASCII letters and digits, and a few marks. -/
def isKeyChar (c : Char) : Bool := c.isAlphanum || c ∈ ['-', '_', '+', '/', '.']

/-- A key that may be looked up: not too long, without empty parts, without two
points in a row, and without a part that is a point, except at the end. -/
def Valid (key : List Char) : Prop :=
  (0 < key.length ∧ key.length < 100) ∧
  (∀ c ∈ key, isKeyChar c) ∧
  ¬ occursIn ['.', '.'] key ∧ ¬ occursIn ['/', '/'] key ∧ ¬ occursIn ['/', '.', '/'] key ∧
  (∀ c ∈ key.head?, c ∉ ['.', '-', '+', '/']) ∧ key.getLast? ≠ some '/'

instance : DecidablePred Valid := fun _ => inferInstanceAs (Decidable (_ ∧ _))

end Key

namespace Path

/-- A path is absolute if it starts with a slash. -/
def IsAbsolute (path : String) : Prop := path.toList.head? = some '/'

instance : DecidablePred IsAbsolute := fun _ => inferInstanceAs (Decidable (_ = _))

/-- The names in a path from the root on. Empty names and points count for nothing. -/
def names (path : List Char) : List (List Char) :=
  (splitAt '/' path).filter fun name => name ≠ [] && name ≠ ['.']

/-- How an absolute path starts. Two slashes are kept, three or more are one. -/
def root (path : List Char) : List Char :=
  if (path.takeWhile (· = '/')).length = 2 then ['/', '/'] else ['/']

/-- An absolute path without empty names and points. -/
def normalize (path : String) : String :=
  String.ofList (root path.toList ++ ['/'].intercalate (names path.toList))

/-- The path that leads on from a directory by another path. An absolute path leads on from
the root, wherever it is joined to. -/
def join (directory path : String) : String :=
  if IsAbsolute path then path
  else if directory.toList = [] ∨ directory.toList.getLast? = some '/' then directory ++ path
  else directory ++ "/" ++ path

/-- The path to the file of a key below the directory of a bundle, joined name by name. -/
def bundled (root key : String) : String :=
  ((splitAt '/' key.toList).map String.ofList).foldl join root

/-- A path that ends in a slash or a point can only lead to a directory. -/
def namesDirectory (path : List Char) : Bool :=
  (splitAt '/' path).getLast?.any fun name => name = [] || name = ['.']

end Path

/-- The files that zones can be loaded from. -/
structure Files where
  /-- Files by their absolute paths. -/
  files : List (String × Bytes)
  /-- Bundled zone files by their paths from the directory of the bundle, which are keys. -/
  bundle : List (String × Bytes)

namespace Files

/-- Whether some names lead from the root to a directory: the root itself, or a
part of the way to a file. -/
def isDirectory (fs : Files) (names : List (List Char)) : Bool :=
  names = [] || fs.files.any fun (name, _) =>
    names ≠ Path.names name.toList && names.isPrefixOf (Path.names name.toList)

/-- Goes from a directory to one of its names, or with two points back to where it
is in. The root is in itself, and nothing is in a directory that there is not. -/
def enter? (fs : Files) (names : List (List Char)) (name : List Char) :
    Option (List (List Char)) :=
  if name ≠ ['.', '.'] then some (names ++ [name])
  else if fs.isDirectory names then some names.dropLast
  else none

/-- The names that lead from the root to where a path leads. -/
def resolve? (fs : Files) (path : String) : Option (List (List Char)) :=
  (Path.names path.toList).foldlM fs.enter? []

/-- The content of the file at a path. -/
def read? (fs : Files) (path : String) : Option Bytes := do
  guard (¬ Path.namesDirectory path.toList)
  let names ← fs.resolve? path
  let (_, content) ← fs.files.find? fun (name, _) => Path.names name.toList = names
  return content

/-- The content of the bundled file for a key. The bundle is a tree of files of its own. -/
def readBundle? (fs : Files) (key : String) : Option Bytes :=
  (Files.mk fs.bundle []).read? (Path.bundled "/" key)

end Files

end CivilTime.Zone
