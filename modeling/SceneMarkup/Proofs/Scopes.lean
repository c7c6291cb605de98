import SceneMarkup.Component.Module
import SceneMarkup.Proofs.Constants

namespace SceneMarkup.Component

open Markup

/-!
# What a module refers to

The reader cuts a module into keywords, names and marks, and keeps a scope for
every function.  It knows nothing of scenes and little of the language.  A name
outside of comments and literals counts as used, unless it is a member behind a
dot or a key before a colon; it counts as imported, declared or bound only
behind the keyword that says so.  Tags and attributes count as used as well: the
reader may find more uses than there are, but not fewer.
-/

/-- The keywords that tell what the names behind them stand for. -/
inductive Keyword
  | imports
  /-- Before the place that names are imported from. -/
  | origin
  | type
  | const
  | function
  deriving Repr, DecidableEq

namespace Keyword

/-- The keyword as written. -/
def text : Keyword → String
  | .imports => "import"
  | .origin => "from"
  | .type => "type"
  | .const => "const"
  | .function => "function"

/-- Every keyword. -/
def all : List Keyword :=
  [.imports, .origin, .type, .const, .function]

end Keyword

/-- What the reader tells apart in a module. -/
inductive Piece
  | keyword (keyword : Keyword)
  | name (name : String)
  | mark (character : Char)
  deriving Repr, DecidableEq

/-- The piece that a word is. -/
def Piece.ofWord (word : String) : Piece :=
  match Keyword.all.find? fun keyword => keyword.text == word with
  | some found => .keyword found
  | none => .name word

/-- The piece that a character is, if the reader heeds it. -/
def marksOf (character : Char) : List Piece :=
  if ['(', ')', openBrace, closeBrace, '=', ':'].contains character then [.mark character] else []

/-- The piece that ends before `character`: none if it is the member of something, behind one dot,
or a key, before a colon. -/
def wordsOf (dots : Nat) (letters : List Char) (character : Char) : List Piece :=
  if dots = 1 ∨ character = ':' then [] else [.ofWord (String.ofList letters)]

/-- Where the reader stands. -/
inductive Place
  /-- Outside of words and literals, behind so many dots. -/
  | code (dots : Nat)
  | word (dots : Nat) (letters : List Char)
  /-- Behind an equals sign, where a quotation mark begins the text of an attribute. -/
  | equals
  | text
  | literal (delimiter : Char)
  /-- After a backslash in a literal. -/
  | escape (delimiter : Char)
  deriving Repr, DecidableEq

namespace Place

/-- The place behind a character that stands outside of words and literals. -/
def behind (dots : Nat) (character : Char) : Place :=
  if Text.continuesIdentifier character then .word dots [character]
  else if IsDelimiter character then .literal character
  else if character = '=' then .equals
  else if character = '.' then .code (dots + 1)
  else .code 0

/-- Take one character: the pieces that it completes, and the place behind it. -/
def take : Place → Char → List Piece × Place
  | .code dots, character => (marksOf character, behind dots character)
  | .word dots letters, character =>
      if Text.continuesIdentifier character then ([], .word dots (letters ++ [character]))
      else (wordsOf dots letters character ++ marksOf character, behind 0 character)
  | .equals, character =>
      if character = '"' then ([], .text) else (marksOf character, behind 0 character)
  | .text, character => ([], if character = '"' then .code 0 else .text)
  | .literal delimiter, character =>
      ([], if character = Text.backslash then .escape delimiter
        else if character = delimiter then .code 0
        else .literal delimiter)
  | .escape delimiter, _ => ([], .literal delimiter)

end Place

/-- What the next names stand for. -/
inductive Role
  | used
  | imported
  | declared
  | bound
  deriving Repr, DecidableEq

/-- What a function binds and what it uses, the latest first; functions inside it belong to it. -/
structure Scope where
  binds : List String
  uses : List String
  deriving Repr, DecidableEq

/-- What has been read of a module, the latest first. -/
structure Reading where
  role : Role
  /-- How many parentheses and braces are open. -/
  depth : Nat
  imports : List String
  types : List String
  /-- What stands outside of functions. -/
  outer : Scope
  /-- The function that has begun. -/
  function? : Option Scope
  finished : List Scope
  deriving Repr, DecidableEq

namespace Reading

/-- Nothing has been read. -/
def start : Reading :=
  ⟨.used, 0, [], [], ⟨[], []⟩, none, []⟩

/-- Change the scope of what comes next. -/
def update (reading : Reading) (change : Scope → Scope) : Reading :=
  match reading.function? with
  | some scope => { reading with function? := some (change scope) }
  | none => { reading with outer := change reading.outer }

/-- More names are used. -/
def withUses (reading : Reading) (names : List String) : Reading :=
  reading.update fun scope => { scope with uses := names ++ scope.uses }

/-- More names are bound. -/
def withBinds (reading : Reading) (names : List String) : Reading :=
  reading.update fun scope => { scope with binds := names ++ scope.binds }

/-- A name has the role that the keyword before it gave it. -/
def takeName (reading : Reading) (name : String) : Reading :=
  match reading.role with
  | .used => reading.withUses [name]
  | .imported => { reading with imports := name :: reading.imports }
  | .declared => { reading with types := name :: reading.types, role := .used }
  | .bound => reading.withBinds [name]

/-- A keyword gives a role to the names behind it. -/
def takeKeyword (reading : Reading) : Keyword → Reading
  | .imports => { reading with role := .imported }
  | .origin => { reading with role := .used }
  | .type => { reading with role := .declared }
  | .const => { reading with role := .bound }
  | .function =>
      { reading with role := .bound, function? := some (reading.function?.getD ⟨[], []⟩) }

/-- The brace that closes the outermost one ends a function. -/
def close (reading : Reading) : Reading :=
  if reading.depth ≤ 1 then
    { reading with
      depth := 0
      function? := none
      finished := reading.function?.toList ++ reading.finished }
  else { reading with depth := reading.depth - 1 }

/-- A mark opens or closes a bracket; parameters end with theirs, and bindings at what they are
bound to. -/
def takeMark (reading : Reading) (character : Char) : Reading :=
  if character = '(' ∨ character = openBrace then { reading with depth := reading.depth + 1 }
  else if character = ')' then { reading with role := .used, depth := reading.depth - 1 }
  else if character = closeBrace then reading.close
  else { reading with role := .used }

/-- Take one piece. -/
def take (reading : Reading) : Piece → Reading
  | .keyword keyword => reading.takeKeyword keyword
  | .name name => reading.takeName name
  | .mark character => reading.takeMark character

/-- The scopes of a module: what stands outside of functions, and every function. -/
def scopes (reading : Reading) : List Scope :=
  reading.outer :: (reading.function?.toList ++ reading.finished)

/-- A name in a scope is imported, declared as a type, or bound there. -/
def Knows (reading : Reading) (scope : Scope) (name : String) : Prop :=
  name ∈ reading.imports ∨ name ∈ reading.types ∨ name ∈ scope.binds

instance (reading : Reading) (scope : Scope) (name : String) :
    Decidable (reading.Knows scope name) :=
  inferInstanceAs (Decidable (_ ∨ _ ∨ _))

end Reading

/-- The reader: where it stands and what it has read. -/
structure Cursor where
  place : Place
  reading : Reading
  deriving Repr, DecidableEq

namespace Cursor

/-- Take one character. -/
def take (cursor : Cursor) (character : Char) : Cursor :=
  match cursor.place.take character with
  | (pieces, next) => ⟨next, pieces.foldl Reading.take cursor.reading⟩

/-- Take the characters of a text. -/
def run (cursor : Cursor) (text : List Char) : Cursor :=
  text.foldl take cursor

end Cursor

/-- The names that a module has from elsewhere, declares or binds, and that its parts share. -/
def sharedNames : List String :=
  ["PerspectiveCamera", "OrthographicCamera", "Merged", "useMemo", "useAnimations", "THREE", "GLTF",
    "GLTFResult", "GLTFActions", "nodes", "materials", "animations", "instances"]

/-- What comes after a comment that has begun. -/
def afterComment : List Char → List Char
  | '*' :: '/' :: rest => rest
  | _ :: rest => afterComment rest
  | [] => []

/-- Read a module that begins with its only comment. -/
def readModule (text : String) : Cursor :=
  Cursor.run ⟨.code 0, .start⟩ (afterComment (text.toList.drop 2))

/-- Both functions use a table, and only the second one binds it. -/
example :
    let reading :=
      (readModule
        "/* it's */\nimport \x7b Load \x7d from 'nodes'\nfunction First() \x7b\n  return nodes.Box\n\x7d\nfunction Second(props) \x7b\n  const \x7b nodes \x7d = Load('\\'')\n  return <G.H text=\"\\\" of=\x7bnodes.Box\x7d />\n\x7d\n").reading
    reading.imports = ["Load"] ∧
      reading.finished =
        [⟨["nodes", "props", "Second"], ["nodes", "of", "text", "G", "return", "Load"]⟩,
          ⟨["First"], ["nodes", "return"]⟩] ∧
      reading.finished.map (fun scope => decide (reading.Knows scope "nodes")) =
        [true, false] := by
  decide +kernel

end SceneMarkup.Component
