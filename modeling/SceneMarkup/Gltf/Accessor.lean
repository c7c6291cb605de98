import SceneMarkup.Gltf.Extensions
import SceneMarkup.Gltf.Scalar

namespace SceneMarkup.Gltf

open Json (Tree Record)

/-!
# Stored data

Buffers hold bytes, views are ranges of buffers, and accessors read the elements
of a view.  A code or a name that means nothing is kept as `none`: reading goes
on, and the asset is refused when it is checked.
-/

/-- How one component of an element is stored. -/
inductive ComponentType
  | byte
  | unsignedByte
  | short
  | unsignedShort
  | unsignedInt
  | single
  deriving Repr, DecidableEq

namespace ComponentType

/-- The component type with the given code. -/
def ofCode? (code : Nat) : Option ComponentType :=
  match code with
  | 5120 => some .byte
  | 5121 => some .unsignedByte
  | 5122 => some .short
  | 5123 => some .unsignedShort
  | 5125 => some .unsignedInt
  | 5126 => some .single
  | _ => none

/-- The component types that can hold an index. -/
def isIndex : ComponentType → Bool
  | .unsignedByte => true
  | .unsignedShort => true
  | .unsignedInt => true
  | _ => false

/-- Bytes of one component. -/
def size : ComponentType → Nat
  | .byte => 1
  | .unsignedByte => 1
  | .short => 2
  | .unsignedShort => 2
  | .unsignedInt => 4
  | .single => 4

end ComponentType

/-- How many components an element has, and how they are arranged. -/
inductive Dimensions
  | scalar
  | vector2
  | vector3
  | vector4
  | matrix2
  | matrix3
  | matrix4
  deriving Repr, DecidableEq

namespace Dimensions

/-- The dimensions with the given name. -/
def ofName? (name : String) : Option Dimensions :=
  match name with
  | "SCALAR" => some .scalar
  | "VEC2" => some .vector2
  | "VEC3" => some .vector3
  | "VEC4" => some .vector4
  | "MAT2" => some .matrix2
  | "MAT3" => some .matrix3
  | "MAT4" => some .matrix4
  | _ => none

/-- The number of components. -/
def components : Dimensions → Nat
  | .scalar => 1
  | .vector2 => 2
  | .vector3 => 3
  | .vector4 => 4
  | .matrix2 => 4
  | .matrix3 => 9
  | .matrix4 => 16

end Dimensions

/-- Bytes, held next to the asset or inside it. -/
structure Buffer where
  byteLength : Nat
  /-- Where the bytes are; absent when the container of the asset carries them. -/
  uri : Option String
  deriving Repr

/-- A range of a buffer. -/
structure View where
  buffer : Nat
  byteLength : Nat
  byteOffset : Option Nat
  /-- Bytes from one element to the next, if they are not packed. -/
  byteStride : Option Nat
  /-- What the range is bound to, if that is said. -/
  target : Option (Option Nat)
  deriving Repr

/-- A part of a view that holds the positions or the elements of a substitution. -/
structure SparsePart where
  bufferView : Nat
  byteOffset : Nat
  deriving Repr

/-- Elements that are replaced by others. -/
structure Sparse where
  count : Nat
  positions : SparsePart
  positionType : Option ComponentType
  elements : SparsePart
  deriving Repr

/-- Typed elements of a view. -/
structure Accessor where
  view : Option Nat
  byteOffset : Option Nat
  count : Nat
  componentType : Option ComponentType
  dimensions : Option Dimensions
  /-- Bounds of the elements, if they are said; any value may stand here. -/
  least : Option Json.Value
  greatest : Option Json.Value
  normalized : Bool
  sparse : Option Sparse
  deriving Repr

/-- The codes of the two targets of a view. -/
def targetOf? (code : Nat) : Option Nat :=
  if code = 34962 ∨ code = 34963 then some code else none

/-- Read a code of which the known ones mean something. -/
def coded? (meaning : Nat → Option α) (tree : Tree) : Option (Option α) :=
  (word? tree).map meaning

/-- Read a name of which the known ones mean something. -/
def named? (meaning : String → Option α) (tree : Tree) : Option (Option α) :=
  tree.text?.map meaning

namespace Buffer

/-- Read a buffer. -/
def ofTree? (tree : Tree) : Option Buffer := do
  let record ← Record.ofTree? ["byteLength", "name", "uri", "extensions", "extras"] 3 tree
  let _ ← record.optional? "name" Tree.text?
  let _ ← Additions.ofRecord? record 3 []
  return ⟨← record.given? "byteLength" 0 Tree.natural?, ← record.optional? "uri" Tree.text?⟩

end Buffer

namespace View

/-- Read a view. -/
def ofTree? (tree : Tree) : Option View := do
  let record ← Record.ofTree?
    ["buffer", "byteLength", "byteOffset", "byteStride", "name", "target", "extensions", "extras"]
    6 tree
  let _ ← record.optional? "name" Tree.text?
  let _ ← Additions.ofRecord? record 3 []
  return {
    buffer := ← record.required? "buffer" word?
    byteLength := ← record.required? "byteLength" Tree.natural?
    byteOffset := ← record.optional? "byteOffset" Tree.natural?
    byteStride := ← record.optional? "byteStride" Tree.natural?
    target := ← record.optional? "target" (coded? targetOf?) }

end View

namespace Sparse

/-- The component types of positions are those that can hold an index. -/
def positionTypeOf? (code : Nat) : Option ComponentType :=
  (ComponentType.ofCode? code).filter ComponentType.isIndex

/-- Read the positions of a substitution. -/
def positionsOfTree? (tree : Tree) : Option (SparsePart × Option ComponentType) := do
  let record ← Record.ofTree?
    ["bufferView", "byteOffset", "componentType", "extensions", "extras"] 3 tree
  let _ ← Additions.ofRecord? record 5 []
  let part : SparsePart :=
    ⟨← record.required? "bufferView" word?, ← record.given? "byteOffset" 0 Tree.natural?⟩
  return (part, ← record.required? "componentType" (coded? positionTypeOf?))

/-- Read the elements of a substitution. -/
def elementsOfTree? (tree : Tree) : Option SparsePart := do
  let record ← Record.ofTree? ["bufferView", "byteOffset", "extensions", "extras"] 1 tree
  let _ ← Additions.ofRecord? record 5 []
  return ⟨← record.required? "bufferView" word?, ← record.given? "byteOffset" 0 Tree.natural?⟩

/-- Read a substitution. -/
def ofTree? (tree : Tree) : Option Sparse := do
  let record ← Record.ofTree? ["count", "indices", "values", "extensions", "extras"] 3 tree
  let _ ← Additions.extrasAlone? record
  let count ← record.required? "count" Tree.natural?
  let positions ← record.required? "indices" positionsOfTree?
  return ⟨count, positions.1, positions.2, ← record.required? "values" elementsOfTree?⟩

end Sparse

namespace Accessor

/-- Read an accessor. -/
def ofTree? (tree : Tree) : Option Accessor := do
  let record ← Record.ofTree?
    ["bufferView", "byteOffset", "count", "componentType", "extensions", "extras", "type", "min",
      "max", "name", "normalized", "sparse"]
    10 tree
  let _ ← record.optional? "name" Tree.text?
  let _ ← Additions.ofRecord? record 3 []
  return {
    view := ← record.optional? "bufferView" word?
    byteOffset := ← record.optional? "byteOffset" Tree.natural?
    count := ← record.required? "count" Tree.natural?
    componentType := ← record.required? "componentType" (coded? ComponentType.ofCode?)
    dimensions := ← record.required? "type" (named? Dimensions.ofName?)
    least := ← record.optional? "min" (Tree.value? (Tree.nestingLimit - 3))
    greatest := ← record.optional? "max" (Tree.value? (Tree.nestingLimit - 3))
    normalized := ← record.given? "normalized" false Tree.flag?
    sparse := ← record.optional? "sparse" Sparse.ofTree? }

/-- Bytes of one element. -/
def size (accessor : Accessor) : Nat :=
  (accessor.componentType.elim 0 ComponentType.size)
    * (accessor.dimensions.elim 0 Dimensions.components)

end Accessor

end SceneMarkup.Gltf
