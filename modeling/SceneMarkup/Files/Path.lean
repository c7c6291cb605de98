namespace SceneMarkup.Files

/-!
# Paths

A path is kept as it was written.  Its steps are read off the text: empty steps
and single dots say nothing, except a single dot in front.  Paths are never
resolved here, so two dots stay a step of their own.

Paths are Unicode text.  A path with bytes that encode no text, and the lossy
reading of the steps of such a path, are left out.
-/

/-- A path as written. -/
structure Path where
  text : String
  deriving Repr, DecidableEq, Inhabited

/-- What a path starts from. -/
inductive Anchor
  /-- The path is relative and opens with its first step. -/
  | implicit
  /-- The path is relative and opens with a single dot. -/
  | here
  /-- The path is absolute. -/
  | root
  deriving Repr, DecidableEq

/-- One step of a path. -/
inductive Step
  | root
  | here
  | up
  | name (text : String)
  deriving Repr, DecidableEq

namespace Step

/-- The text of a step. -/
def text : Step → String
  | .root => "/"
  | .here => "."
  | .up => ".."
  | .name text => text

end Step

namespace Path

/-- The pieces of a text between slashes; there is always one. -/
def piecesOf : List Char → List (List Char)
  | [] => [[]]
  | character :: rest =>
      if character = '/' then [] :: piecesOf rest
      else
        match piecesOf rest with
        | [] => [[character]]
        | first :: others => (character :: first) :: others

/-- Where a path starts, and the pieces after that. -/
def split (path : Path) : Anchor × List String :=
  let body (text : List Char) := (piecesOf text).map String.ofList
  match path.text.toList with
  | '/' :: rest => (.root, body rest)
  | ['.'] => (.here, [])
  | '.' :: '/' :: rest => (.here, "" :: body rest)
  | text => (.implicit, body text)

/-- The step that stands for the start of a path, if one does. -/
def anchorSteps : Anchor → List Step
  | .implicit => []
  | .here => [.here]
  | .root => [.root]

/-- Pieces that take no step. -/
def isIdle (piece : String) : Bool :=
  piece == "" || piece == "."

/-- The step of a piece. -/
def stepOf? (piece : String) : Option Step :=
  if isIdle piece then none
  else if piece = ".." then some .up
  else some (.name piece)

/-- The steps of a path, in order. -/
def steps (path : Path) : List Step :=
  anchorSteps path.split.1 ++ path.split.2.filterMap stepOf?

/-- Drop the pieces at the end that take no step. -/
def dropIdle (pieces : List String) : List String :=
  (pieces.reverse.dropWhile isIdle).reverse

/-- The last step, if it is a name. -/
def fileName? (path : Path) : Option String :=
  match path.steps.getLast? with
  | some (.name text) => some text
  | _ => none

/-- The path without its last step; a path without a step, and the root, have no parent. -/
def parent? (path : Path) : Option Path :=
  let (anchor, pieces) := path.split
  match anchor, dropIdle pieces with
  | .root, [] => none
  | .here, [] => some ⟨""⟩
  | .implicit, [] => none
  | .root, kept => some ⟨"/" ++ String.intercalate "/" (dropIdle kept.dropLast)⟩
  | .here, kept => some ⟨"." ++ String.intercalate "/" (dropIdle kept.dropLast)⟩
  | .implicit, kept => some ⟨String.intercalate "/" (dropIdle kept.dropLast)⟩

/-- Go on from `path` along `next`; an absolute `next` starts anew. -/
def join (path next : Path) : Path :=
  if next.text.toList.head? = some '/' then next
  else if path.text = "" ∨ path.text.toList.getLast? = some '/' then ⟨path.text ++ next.text⟩
  else ⟨path.text ++ "/" ++ next.text⟩

/-- Put `name` in the place of the last step, or after a last step that is no name. -/
def withFileName (path : Path) (name : String) : Path :=
  if path.fileName?.isSome then (path.parent?.getD ⟨""⟩).join ⟨name⟩ else path.join ⟨name⟩

/-- A file name up to its last dot; a dot in front belongs to the name. -/
def stemOf (name : String) : String :=
  match name.toList.reverse.dropWhile (· != '.') with
  | [] => name
  | [_] => name
  | _ :: stem => String.ofList stem.reverse

/-- The last step up to its last dot, if it is a name. -/
def stem? (path : Path) : Option String :=
  path.fileName?.map stemOf

/-- The steps of a path that lead somewhere. -/
def moves (path : Path) : List Step :=
  path.steps.filter (· != .here)

/-- Drop the steps that both lists start with. -/
def dropCommon : List Step → List Step → List Step × List Step
  | first :: rest, other :: others =>
      if first = other then dropCommon rest others else (first :: rest, other :: others)
  | left, right => (left, right)

/-- The path of `file` as seen from `root`: up from what only `root` has, then down to `file`. -/
def relativeTo (file root : Path) : String :=
  let (down, up) := dropCommon file.moves root.moves
  String.intercalate "/" (up.map (fun _ => Step.up.text) ++ down.map Step.text)

end Path

end SceneMarkup.Files
