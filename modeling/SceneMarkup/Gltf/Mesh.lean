import SceneMarkup.Gltf.Accessor

namespace SceneMarkup.Gltf

open Json (Tree Record)

/-!
# Meshes

A mesh is a list of primitives.  A primitive names one accessor for each
meaning that its vertices have.
-/

/-- What an attribute of a vertex means. -/
inductive Semantic
  | positions
  | normals
  | tangents
  | colors (set : Nat)
  | textureCoordinates (set : Nat)
  | joints (set : Nat)
  | weights (set : Nat)
  /-- A meaning of the author's own. -/
  | custom (name : String)
  deriving Repr, DecidableEq

namespace Semantic

/-- Digits, after a plus sign or not, of a number of at most 32 bits. -/
def set? (text : List Char) : Option Nat :=
  let digits :=
    match text with
    | '+' :: rest => rest
    | rest => rest
  if digits.isEmpty || !digits.all Char.isDigit then none
  else
    let value := Json.digitsValue digits
    if value < UInt32.size then some value else none

/-- What follows `start` in a text that starts with it. -/
def after? (start : String) (text : List Char) : Option (List Char) :=
  if start.toList.isPrefixOf text then some (text.drop start.length) else none

/-- The meaning with the given name. -/
def ofName? (name : String) : Option Semantic :=
  let text := name.toList
  match name with
  | "POSITION" => some .positions
  | "NORMAL" => some .normals
  | "TANGENT" => some .tangents
  | _ =>
      match after? "_" text with
      | some rest => some (.custom (String.ofList rest))
      | none =>
          (((after? "COLOR_" text).bind set?).map Semantic.colors).orElse fun _ =>
          (((after? "TEXCOORD_" text).bind set?).map Semantic.textureCoordinates).orElse fun _ =>
          (((after? "JOINTS_" text).bind set?).map Semantic.joints).orElse fun _ =>
          ((after? "WEIGHTS_" text).bind set?).map Semantic.weights

/-- A text for each meaning; different meanings have different texts. -/
def label : Semantic → String
  | .positions => "Positions"
  | .normals => "Normals"
  | .tangents => "Tangents"
  | .colors set => "Colors(" ++ toString set ++ ")"
  | .textureCoordinates set => "TexCoords(" ++ toString set ++ ")"
  | .joints set => "Joints(" ++ toString set ++ ")"
  | .weights set => "Weights(" ++ toString set ++ ")"
  | .custom name => "Extras(" ++ name ++ ")"

end Semantic

/-- What the vertices of a primitive draw. -/
inductive Mode
  | points
  | lines
  | lineLoop
  | lineStrip
  | triangles
  | triangleStrip
  | triangleFan
  deriving Repr, DecidableEq

namespace Mode

/-- All modes, each at the place of its code. -/
def all : List Mode :=
  [.points, .lines, .lineLoop, .lineStrip, .triangles, .triangleStrip, .triangleFan]

/-- The mode with the given code. -/
def ofCode? (code : Nat) : Option Mode :=
  all[code]?

/-- The code of a mode. -/
def code (mode : Mode) : Nat :=
  all.idxOf mode

end Mode

/-- One shape that a primitive can blend towards. -/
structure MorphTarget where
  positions : Option Nat
  normals : Option Nat
  tangents : Option Nat
  deriving Repr, DecidableEq

/-- One drawing of a mesh. -/
structure Primitive where
  /-- An accessor for each meaning; a name without a meaning is kept as `none`. -/
  attributes : List (Option Semantic × Nat)
  indices : Option Nat
  material : Option Nat
  mode : Option Mode
  targets : List MorphTarget
  deriving Repr

/-- A mesh. -/
structure Mesh where
  name : Option String
  extras : Tree
  primitives : List Primitive
  weights : Option (List Float32)
  deriving Repr

namespace MorphTarget

/-- Read a shape. -/
def ofTree? (tree : Tree) : Option MorphTarget := do
  let record ← Record.ofTree? ["POSITION", "NORMAL", "TANGENT"] 3 tree
  return {
    positions := ← record.optional? "POSITION" word?
    normals := ← record.optional? "NORMAL" word?
    tangents := ← record.optional? "TANGENT" word? }

end MorphTarget

namespace Primitive

/-- Put an attribute in the place of the one with its meaning, or at the end. -/
def withAttribute (attributes : List (Option Semantic × Nat)) (meaning : Option Semantic)
    (accessor : Nat) : List (Option Semantic × Nat) :=
  attributes.filter (·.1 != meaning) ++ [(meaning, accessor)]

/-- Read attributes; of two with one meaning the later one stays. -/
def attributesOfTree? : Tree → Option (List (Option Semantic × Nat))
  | .object members =>
      (Record.keyed? members).bind fun keyed =>
        keyed.foldlM
          (fun attributes member =>
            (word? member.2).map (withAttribute attributes (Semantic.ofName? member.1)))
          []
  | _ => none

/-- Read a primitive. -/
def ofTree? (tree : Tree) : Option Primitive := do
  let record ← Record.ofTree?
    ["attributes", "extensions", "extras", "indices", "material", "mode", "targets"] 7 tree
  let _ ← Additions.ofRecord? record 5 []
  let targets ← record.optional? "targets" (Tree.list? MorphTarget.ofTree?)
  return {
    attributes := ← record.required? "attributes" attributesOfTree?
    indices := ← record.optional? "indices" word?
    material := ← record.optional? "material" word?
    mode := ← record.given? "mode" (some .triangles) (coded? Mode.ofCode?)
    targets := targets.getD [] }

/-- The accessor of a meaning. -/
def accessor? (primitive : Primitive) (meaning : Semantic) : Option Nat :=
  (primitive.attributes.find? fun attached => attached.1 == some meaning).map (·.2)

/-- The attributes whose meaning is known, sorted by the text of the meaning. -/
def labelled (primitive : Primitive) : List (String × Nat) :=
  (primitive.attributes.filterMap fun attached =>
    attached.1.map fun meaning => (meaning.label, attached.2)).mergeSort
      fun first second => first.1 ≤ second.1

end Primitive

namespace Mesh

/-- Read a mesh. -/
def ofTree? (tree : Tree) : Option Mesh := do
  let record ← Record.ofTree? ["extensions", "extras", "name", "primitives", "weights"] 5 tree
  let additions ← Additions.ofRecord? record 3 []
  return {
    name := ← record.optional? "name" Tree.text?
    extras := additions.extras
    primitives := ← record.required? "primitives" (Tree.list? Primitive.ofTree?)
    weights := ← record.optional? "weights" (Tree.list? single?) }

end Mesh

end SceneMarkup.Gltf
