import SceneMarkup.Files.OsError
import SceneMarkup.Files.Path

namespace SceneMarkup.Files

/-!
# File trees

A tree of directories and files, and the operations on it that a conversion
needs.  Every operation gives back a new tree or says why it is refused; a
refused operation changes nothing.
-/

/-- Names from the root of the tree down to a place. -/
abbrev Place := List String

/-- What stands at a place. -/
inductive Entry
  | directory
  | file (bytes : ByteArray)

namespace Entry

/-- Whether other entries can stand below. -/
def isDirectory : Entry → Bool
  | .directory => true
  | .file _ => false

/-- The content of a file. -/
def bytes? : Entry → Option ByteArray
  | .directory => none
  | .file bytes => some bytes

end Entry

/-- Entries at their places, and the directory that relative paths start from. -/
structure FileTree where
  /-- One entry a place; the root is no entry, it is always a directory. -/
  entries : List (Place × Entry)
  home : Place

namespace FileTree

/-- The longest name, in bytes. -/
def nameLimit : Nat := 255

/-- The longest path, in bytes. -/
def pathLimit : Nat := 4095

/-- The entry at a place. -/
def at? (tree : FileTree) (place : Place) : Option Entry :=
  if place = [] then some .directory
  else (tree.entries.find? fun entry => entry.1 == place).map (·.2)

/-- Put an entry at a place, instead of what stands there. -/
def put (tree : FileTree) (place : Place) (entry : Entry) : FileTree :=
  { tree with entries := (place, entry) :: tree.entries.filter fun other => other.1 != place }

/-- Take away what stands at a place. -/
def erase (tree : FileTree) (place : Place) : FileTree :=
  { tree with entries := tree.entries.filter fun other => other.1 != place }

/-- Whether a directory stands at a place. -/
def isDirectoryAt (tree : FileTree) (place : Place) : Bool :=
  (tree.at? place).any Entry.isDirectory

/-- Below `place` other places can be reached only if it is a directory. -/
def enter (tree : FileTree) (place : Place) : Except OsError Unit :=
  match tree.at? place with
  | some .directory => .ok ()
  | some (.file _) => .error .notDirectory
  | none => .error .notFound

/-- Go from a place along one piece of a path. -/
def go (tree : FileTree) (place : Place) (piece : String) : Except OsError Place := do
  tree.enter place
  if piece == "" || piece == "." then return place
  if piece == ".." then return place.dropLast
  if nameLimit < piece.utf8ByteSize then throw .nameTooLong
  return place ++ [piece]

/-- Where a path starts, and its pieces; some texts are no paths for the system. -/
def start (tree : FileTree) (path : Path) : Except OsError (Place × List String) :=
  if path.text.toList.contains '\x00' then .error .brokenName
  else if path.text = "" then .error .notFound
  else if pathLimit < path.text.utf8ByteSize then .error .nameTooLong
  else
    let (anchor, pieces) := path.split
    .ok (if anchor = .root then [] else tree.home, pieces)

/-- The place that a path leads to; something need not stand there. -/
def locate (tree : FileTree) (path : Path) : Except OsError Place := do
  let (place, pieces) ← tree.start path
  pieces.foldlM tree.go place

/-- Whether a path can only lead to a directory, by the way it ends. -/
def endsOpen (path : Path) : Bool :=
  match path.split.2.getLast? with
  | some last => last == "" || last == "." || last == ".."
  | none => true

/-- The entry that a path leads to. -/
def lookup (tree : FileTree) (path : Path) : Except OsError Entry := do
  match tree.at? (← tree.locate path) with
  | some entry => .ok entry
  | none => .error .notFound

/-- Whether a path leads to something. -/
def contains (tree : FileTree) (path : Path) : Bool :=
  (tree.lookup path).isOk

/-- The content of the file that a path leads to. -/
def read (tree : FileTree) (path : Path) : Except OsError ByteArray := do
  match ← tree.lookup path with
  | .file bytes => .ok bytes
  | .directory => .error .isDirectory

/-- Where a path without its last piece leads, and that piece. -/
def locateParent (tree : FileTree) (path : Path) : Except OsError (Place × String) := do
  let (place, pieces) ← tree.start path
  let kept := (pieces.reverse.dropWhile (· == "")).reverse
  let parent ← kept.dropLast.foldlM tree.go place
  tree.enter parent
  return (parent, kept.getLast?.getD "")

/-- Write a file, in the place of one that stands there. -/
def write (tree : FileTree) (path : Path) (bytes : ByteArray) : Except OsError FileTree := do
  let (parent, last) ← tree.locateParent path
  let place ← tree.go parent last
  if tree.isDirectoryAt place || endsOpen path then throw .isDirectory
  return tree.put place (.file bytes)

/-- Remove a file. -/
def remove (tree : FileTree) (path : Path) : Except OsError FileTree := do
  let place ← tree.locate path
  match tree.at? place with
  | some (.file _) => .ok (tree.erase place)
  | some .directory => .error .isDirectory
  | none => .error .notFound

/-- Move a file to a new path, in the place of a file that stands there. -/
def move (tree : FileTree) (source target : Path) : Except OsError FileTree := do
  let origin ← tree.locate source
  let (parent, last) ← tree.locateParent target
  if last == "" || last == "." || last == ".." then throw .busy
  let place ← tree.go parent last
  match tree.at? origin with
  | some (.file bytes) =>
      if endsOpen target then throw .notDirectory
      if tree.isDirectoryAt place then throw .isDirectory
      return (tree.erase origin).put place (.file bytes)
  | some .directory => throw .isDirectory
  | none => throw .notFound

/-- Make a directory in an existing one. -/
def createDirectory (tree : FileTree) (path : Path) : Except OsError FileTree := do
  let (parent, last) ← tree.locateParent path
  let place ← tree.go parent last
  match tree.at? place with
  | some _ => .error .exists
  | none => .ok (tree.put place .directory)

/-- Whether a path leads to a directory. -/
def isDirectory (tree : FileTree) (path : Path) : Bool :=
  match tree.lookup path with
  | .ok .directory => true
  | _ => false

/-- The path and the paths above it, from the longest to the shortest. -/
def ancestry : Nat → Path → List Path
  | 0, path => [path]
  | steps + 1, path =>
      match path.parent? with
      | some parent => path :: ancestry steps parent
      | none => [path]

/-- Make the directories of `paths`, each inside the next one. -/
def createChain (tree : FileTree) : List Path → Except OsError FileTree
  | [] => .error .notFound
  | path :: above =>
      if path.text = "" then .ok tree
      else
        match tree.createDirectory path with
        | .ok made => .ok made
        | .error .notFound => do
            let made ← tree.createChain above
            match made.createDirectory path with
            | .ok done => .ok done
            | .error error => if made.isDirectory path then .ok made else .error error
        | .error error => if tree.isDirectory path then .ok tree else .error error

/-- Make a directory and the directories above it, as far as they are missing. -/
def createDirectories (tree : FileTree) (path : Path) : Except OsError FileTree :=
  tree.createChain (ancestry path.text.length path)

/-- The files of the tree with their places. -/
def files (tree : FileTree) : List (Place × ByteArray) :=
  tree.entries.filterMap fun entry => entry.2.bytes?.map fun bytes => (entry.1, bytes)

end FileTree

end SceneMarkup.Files
