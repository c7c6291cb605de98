import SceneMarkup.Gltf.Validity
import SceneMarkup.Loading.Registry

namespace SceneMarkup.Loading

open Gltf (Document Accessor Sparse ComponentType Dimensions Primitive MorphTarget Semantic)

/-!
# What a primitive draws

The data of an accessor is what a renderer reads: the elements of its view, or
zeros when it has none, with the substitutes of a sparse accessor in their
places, each decoded as the accessor says.  Two primitives draw the same when
their mode, their indices, their attributes and their shapes are the same data,
wherever it is stored.
-/

section Data

/-- A valid document together with the bytes of all of its buffers. -/
structure Complete (document : Document) (contents : Array ByteArray) : Prop where
  valid : document.isValid = true
  buffers : contents.size = document.buffers.size

/-- The number that bytes spell, the least significant byte first. -/
def littleEndian (bytes : List UInt8) : Nat :=
  bytes.foldr (fun byte value => byte.toNat + 256 * value) 0

/-- One component of an element; a single is known by its bits. -/
inductive Component
  | whole (value : Int)
  | single (bits : Nat)
  deriving Repr, DecidableEq

/-- Decode one component. -/
def componentOf (type : ComponentType) (bytes : List UInt8) : Component :=
  let value := littleEndian bytes
  match type with
  | .byte => .whole (Int.bmod value 256)
  | .unsignedByte => .whole value
  | .short => .whole (Int.bmod value 65536)
  | .unsignedShort => .whole value
  | .unsignedInt => .whole value
  | .single => .single value

/-- Decode one element. -/
def elementOf
    (type : ComponentType)
    (dimensions : Dimensions)
    (bytes : List UInt8) :
    List Component :=
  (List.range dimensions.components).map fun place =>
    componentOf type ((bytes.drop (place * type.size)).take type.size)

variable (document : Document) (contents : Array ByteArray)

/-- The `size` bytes from `start` on, if there are so many. -/
def bytesFrom? (bytes : ByteArray) (start size : Nat) : Option (List UInt8) :=
  if start + size ≤ bytes.size then some (bytes.extract start (start + size)).toList else none

/-- The bytes of one of the items of `size` bytes that stand in a view from `offset` on. -/
def storedItem? (view offset size place : Nat) : Option (List UInt8) := do
  let range ← document.views[view]?
  let bytes ← contents[range.buffer]?
  bytesFrom? bytes
    (range.byteOffset.getD 0 + offset + place * range.byteStride.getD size) size

/-- The bytes of an element before anything is substituted. -/
def storedElement? (accessor : Accessor) (place : Nat) : Option (List UInt8) :=
  match accessor.view with
  | some view =>
      storedItem? document contents view (accessor.byteOffset.getD 0) accessor.size place
  | none => some (List.replicate accessor.size 0)

/-- The place at which a substitute goes. -/
def position? (sparse : Sparse) (substitute : Nat) : Option Nat := do
  let type ← sparse.positionType
  let bytes ← storedItem? document contents sparse.positions.bufferView
    sparse.positions.byteOffset type.size substitute
  return littleEndian bytes

/-- The bytes that go to a place in the stead of those that are stored, if any do. -/
def substitute? (accessor : Accessor) (place : Nat) : Option (Option (List UInt8)) := do
  let sparse ← accessor.sparse
  let substitute ← (List.range sparse.count).find? fun substitute =>
    position? document contents sparse substitute == some place
  return storedItem? document contents sparse.elements.bufferView sparse.elements.byteOffset
    accessor.size substitute

/-- The bytes of an element. -/
def elementBytes? (accessor : Accessor) (place : Nat) : Option (List UInt8) :=
  (substitute? document contents accessor place).getD
    (storedElement? document contents accessor place)

/-- How elements are stored, and their values; an element that is cut off has no value. -/
structure Data where
  componentType : Option ComponentType
  dimensions : Option Dimensions
  normalized : Bool
  values : List (Option (List Component))
  deriving Repr, DecidableEq

/-- The data of an accessor. -/
def Data.ofAccessor (accessor : Accessor) : Data where
  componentType := accessor.componentType
  dimensions := accessor.dimensions
  normalized := accessor.normalized
  values := (List.range accessor.count).map fun place => do
    let type ← accessor.componentType
    let dimensions ← accessor.dimensions
    return elementOf type dimensions (← elementBytes? document contents accessor place)

/-- The data of the accessor at a place. -/
def dataAt (index : Nat) : Option Data :=
  (document.accessors[index]?).map (Data.ofAccessor document contents)

/-- The data that a shape blends towards. -/
structure Shape where
  positions : Option Data
  normals : Option Data
  tangents : Option Data
  deriving Repr, DecidableEq

/-- The shape of a morph target. -/
def Shape.ofTarget (target : MorphTarget) : Shape where
  positions := target.positions.bind (dataAt document contents)
  normals := target.normals.bind (dataAt document contents)
  tangents := target.tangents.bind (dataAt document contents)

/-- The primitive has an attribute with this meaning and this data. -/
def Attaches (primitive : Primitive) (meaning : Semantic) (data : Data) : Prop :=
  ∃ index, (some meaning, index) ∈ primitive.attributes ∧
    dataAt document contents index = some data

/-- Two primitives draw the same. -/
structure SameDrawing (first second : Primitive) : Prop where
  mode : first.mode = second.mode
  indices :
    first.indices.bind (dataAt document contents) =
      second.indices.bind (dataAt document contents)
  attributes :
    ∀ meaning data,
      Attaches document contents first meaning data ↔
        Attaches document contents second meaning data
  shapes :
    first.targets.map (Shape.ofTarget document contents) =
      second.targets.map (Shape.ofTarget document contents)

end Data

section Conditions

/-- The accessors of a morph target, in the order they are looked at. -/
def targetAccessors (target : MorphTarget) : List Nat :=
  [target.positions, target.normals, target.tangents].flatMap Option.toList

/-- The accessors of all morph targets of a primitive in one row. -/
def rowOfTargets (primitive : Primitive) : List Nat :=
  primitive.targets.flatMap targetAccessors

/-- Which of its three meanings a morph target has. -/
def meaningsOf (target : MorphTarget) : Bool × Bool × Bool :=
  (target.positions.isSome, target.normals.isSome, target.tangents.isSome)

/-- What a geometry is shared by: the accessors of indices and attributes, and the mode. -/
def keyOf (primitive : Primitive) : GeometryKey :=
  ⟨primitive.indices, primitive.labelled, modeCode primitive⟩

variable (document : Document) (contents : Array ByteArray)

/-- The bytes stored for two accessors tell whether they hold the same data: they are one accessor,
or as soon as they have equally many elements of one size, both have no view, or both have one and
agree on how elements are stored and on what is put in their stead. -/
def ToldApart (first second : Nat) : Prop :=
  first = second ∨
    ∀ left right, document.accessors[first]? = some left →
      document.accessors[second]? = some right →
      left.count = right.count → left.size = right.size → left.normalized = right.normalized →
        (left.view = none ∧ right.view = none) ∨
          (left.view.isSome ∧ right.view.isSome ∧
            left.componentType = right.componentType ∧ left.dimensions = right.dimensions ∧
            ∀ place < left.count,
              substitute? document contents left place = substitute? document contents right place)

/-- The bytes stored for two primitives tell whether they draw the same. -/
structure Comparable (first second : Primitive) : Prop where
  attributes :
    ∀ meaning left right, (some meaning, left) ∈ first.attributes →
      (some meaning, right) ∈ second.attributes → ToldApart document contents left right
  indices :
    ∀ left right, first.indices = some left → second.indices = some right →
      ToldApart document contents left right
  targets :
    ∀ place left right : Nat, (rowOfTargets first)[place]? = some left →
      (rowOfTargets second)[place]? = some right → ToldApart document contents left right
  /-- Rows of one length are cut into targets in the same way. -/
  shapes :
    (rowOfTargets first).length = (rowOfTargets second).length →
      first.targets.map meaningsOf = second.targets.map meaningsOf

/-- The document has the primitive. -/
def Known (primitive : Primitive) : Prop :=
  ∃ mesh ∈ document.meshes, primitive ∈ mesh.primitives

/-- The key of a primitive determines its morph targets. -/
def Keyed (primitive : Primitive) : Prop :=
  ∀ other, Known document other → keyOf other = keyOf primitive → other.targets = primitive.targets

end Conditions

end SceneMarkup.Loading
