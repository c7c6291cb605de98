import SceneMarkup.Json.Token
import SceneMarkup.Text.Decoding

namespace SceneMarkup.Json

/-!
# JSON texts as trees

A tree is a text after checking its grammar only: number literals are not yet
numbers, repeated keys are all kept, and strings need not be texts.  Whoever
reads a tree decides which of these matter.
-/

/-- A JSON text with its grammar checked. -/
inductive Tree
  | null
  | bool (flag : Bool)
  | number (literal : Literal)
  | text (wording : Wording)
  | array (items : List Tree)
  | object (members : List (Wording × Tree))
  deriving Repr, Inhabited

/-- A container that is still open; its parts are held backwards. -/
inductive Frame
  | array (items : List Tree)
  | object (members : List (Wording × Tree)) (key : Wording)
  deriving Repr

/-- What may come next. -/
inductive Expected
  | value
  | valueOrClose
  | key
  | keyOrClose
  | colon
  | separator
  | nothing
  deriving Repr, DecidableEq

/-- The open containers, innermost first, and the finished tree once there is one. -/
structure Builder where
  frames : List Frame
  expected : Expected
  result : Option Tree

namespace Builder

/-- Nothing read yet. -/
def start : Builder :=
  ⟨[], .value, none⟩

/-- Whether a value may come next. -/
def takesValue (builder : Builder) : Bool :=
  builder.expected == .value || builder.expected == .valueOrClose

/-- Put a finished value into the innermost container. -/
def place (frames : List Frame) (tree : Tree) : Builder :=
  match frames with
  | [] => ⟨[], .nothing, some tree⟩
  | .array items :: rest => ⟨.array (tree :: items) :: rest, .separator, none⟩
  | .object members key :: rest => ⟨.object ((key, tree) :: members) (.text "") :: rest, .separator, none⟩

/-- Put a value that is a single token. -/
def leaf? (builder : Builder) (tree : Tree) : Option Builder :=
  if builder.takesValue then some (place builder.frames tree) else none

/-- Take one token. -/
def step? (builder : Builder) (token : Token) : Option Builder :=
  match token with
  | .null => builder.leaf? .null
  | .bool flag => builder.leaf? (.bool flag)
  | .number literal => builder.leaf? (.number literal)
  | .text text =>
      match builder.expected, builder.frames with
      | .key, .object members _ :: rest => some ⟨.object members text :: rest, .colon, none⟩
      | .keyOrClose, .object members _ :: rest => some ⟨.object members text :: rest, .colon, none⟩
      | _, _ => builder.leaf? (.text text)
  | .openArray =>
      if builder.takesValue then some ⟨.array [] :: builder.frames, .valueOrClose, none⟩ else none
  | .openObject =>
      if builder.takesValue then some ⟨.object [] (.text "") :: builder.frames, .keyOrClose, none⟩
      else none
  | .closeArray =>
      match builder.expected, builder.frames with
      | .valueOrClose, .array items :: rest => some (place rest (.array items.reverse))
      | .separator, .array items :: rest => some (place rest (.array items.reverse))
      | _, _ => none
  | .closeObject =>
      match builder.expected, builder.frames with
      | .keyOrClose, .object members _ :: rest => some (place rest (.object members.reverse))
      | .separator, .object members _ :: rest => some (place rest (.object members.reverse))
      | _, _ => none
  | .comma =>
      match builder.expected, builder.frames with
      | .separator, .array _ :: _ => some { builder with expected := .value }
      | .separator, .object _ _ :: _ => some { builder with expected := .key }
      | _, _ => none
  | .colon => if builder.expected = .colon then some { builder with expected := .value } else none

end Builder

namespace Tree

/-- The tree of a list of tokens, if they spell exactly one value. -/
def ofTokens? (tokens : List Token) : Option Tree :=
  (tokens.foldlM Builder.step? Builder.start).bind (·.result)

/-- The tree of a text, if it is exactly one value between blanks. -/
def ofText? (text : String) : Option Tree :=
  (tokens? (text.toList.map some)).bind ofTokens?

/-- The tree of some bytes; those that belong to no character may stand in strings. -/
def ofBytes? (bytes : ByteArray) : Option Tree :=
  (tokens? (Text.decoded bytes)).bind ofTokens?

mutual

/-- Whether every byte of a tree belongs to a character. -/
def isLegible : Tree → Bool
  | .text wording => wording != .garbled
  | .array items => areLegible items
  | .object members => areLegibleMembers members
  | _ => true

/-- Whether every byte of the items of an array belongs to a character. -/
def areLegible : List Tree → Bool
  | [] => true
  | item :: rest => isLegible item && areLegible rest

/-- Whether every byte of the members of an object belongs to a character. -/
def areLegibleMembers : List (Wording × Tree) → Bool
  | [] => true
  | (key, item) :: rest => key != .garbled && isLegible item && areLegibleMembers rest

end

/-- How deep containers may nest when a text becomes a value. -/
def nestingLimit : Nat := 127

mutual

/-- The value of a tree whose containers nest at most `room` deep. -/
def value? (room : Nat) : Tree → Option Value
  | .null => some .null
  | .bool flag => some (.bool flag)
  | .number literal => literal.number?.map .number
  | .text wording => wording.text?.map .text
  | .array items =>
      if room = 0 then none else (valuesOf? (room - 1) items).map .array
  | .object members =>
      if room = 0 then none
      else (membersOf? (room - 1) members).map fun read => .object (Members.ofList read)

/-- The values of the items of an array. -/
def valuesOf? (room : Nat) : List Tree → Option (List Value)
  | [] => some []
  | item :: rest =>
      (value? room item).bind fun value => (valuesOf? room rest).map (value :: ·)

/-- The members of an object in the order written. -/
def membersOf? (room : Nat) : List (Wording × Tree) → Option (List (String × Value))
  | [] => some []
  | (key, item) :: rest =>
      key.text?.bind fun key =>
        (value? room item).bind fun value => (membersOf? room rest).map ((key, value) :: ·)

end

end Tree

/-- The value of a text. -/
def Value.ofText? (text : String) : Option Value :=
  (Tree.ofText? text).bind (Tree.value? Tree.nestingLimit)

/-- The members of a text that is an object. -/
def Members.ofText? (text : String) : Option Members :=
  match Value.ofText? text with
  | some (.object members) => some members
  | _ => none

end SceneMarkup.Json
