import SceneMarkup.Loading.Fingerprints
import SceneMarkup.Text.Blank
import SceneMarkup.Text.Names

namespace SceneMarkup.Loading

open Gltf (Document Primitive)
open Scene (Geometry GeometryId MaterialId MaterialKind)

/-!
# The registry of a scene under construction

While a scene is built the registry keeps the names that are taken, the shared
geometries and materials in the order of their first use, and what was built for
each mesh.
-/

/-- A document, and the bytes of its buffers when content counts. -/
structure Source where
  document : Document
  contents : Option (Array ByteArray)

/-- What makes the geometries of two primitives one. -/
structure GeometryKey where
  indices : Option Nat
  attributes : List (String × Nat)
  mode : Nat
  deriving Repr, DecidableEq

/-- What makes the materials of two primitives one. -/
structure MaterialKey where
  index : Option Nat
  kind : MaterialKind
  deriving Repr, DecidableEq

/-- The registry. -/
structure Registry where
  taken : List String := []
  geometries : List (GeometryKey × Geometry) := []
  materials : List (MaterialKey × Scene.Material) := []
  /-- The objects built for the primitives of a mesh. -/
  meshes : List (Nat × List Scene.Node) := []
  /-- How often each mesh was used, for meshes of several nodes. -/
  uses : List (Nat × Nat) := []

/-- A step of the construction of a scene. -/
abbrev Building := StateM Registry

/-- Characters that the paths of animation tracks give a meaning of their own. -/
def isReserved (character : Char) : Bool :=
  ['[', ']', '.', ':', '/'].contains character

/-- A name without reserved characters, and with an underscore for every blank. -/
def sanitized (name : String) : String :=
  String.ofList ((name.toList.filter fun character => !isReserved character).map fun character =>
    if Text.isBlank character then '_' else character)

namespace Registry

/-- A name that is not taken yet, as close as possible to the one asked for. -/
def freshName (registry : Registry) (name : String) : String :=
  Text.firstFree registry.taken (Text.numbered "_" (sanitized name))

/-- Put a value for a key into a table, unless the key has one. -/
def enter [DecidableEq κ] (table : List (κ × α)) (key : κ) (value : α) : List (κ × α) :=
  if table.any (·.1 = key) then table else table ++ [(key, value)]

/-- The place of a key in a table. -/
def place [DecidableEq κ] (table : List (κ × α)) (key : κ) : Nat :=
  table.findIdx (·.1 = key)

/-- The value that a table has for a key. -/
def find? [DecidableEq κ] (table : List (κ × α)) (key : κ) : Option α :=
  (table.find? (·.1 = key)).map (·.2)

/-- Set the value of a key. -/
def assign [DecidableEq κ] (table : List (κ × α)) (key : κ) (value : α) : List (κ × α) :=
  (key, value) :: table.filter (·.1 ≠ key)

end Registry

/-- Take a name that is as close as possible to the one asked for. -/
def claimName (name : String) : Building String := do
  let fresh := (← get).freshName name
  modify fun registry => { registry with taken := fresh :: registry.taken }
  return fresh

/-- The geometry of a primitive: primitives that read the same accessors share one. -/
def claimGeometry (source : Source) (primitive : Primitive) : Building GeometryId := do
  let key : GeometryKey := ⟨primitive.indices, primitive.labelled, modeCode primitive⟩
  let geometry : Geometry :=
    ⟨source.contents.map fun contents => primitiveFingerprint source.document contents primitive⟩
  modify fun registry =>
    { registry with geometries := Registry.enter registry.geometries key geometry }
  return Registry.place (← get).geometries key

/-- The family of a primitive's material: points and lines have their own. -/
def materialKind (mode : Gltf.Mode) (material : Gltf.Material) : MaterialKind :=
  match mode with
  | .points => .points
  | .lines => .line
  | .lineLoop => .line
  | .lineStrip => .line
  | _ => if material.unlit then .basic else .standard

/-- The material of a primitive: a material is shared within each family. -/
def claimMaterial (source : Source) (primitive : Primitive) : Building MaterialId := do
  let material :=
    (primitive.material.bind fun index => source.document.materials[index]?).getD .absent
  let kind := materialKind (primitive.mode.getD .triangles) material
  let key : MaterialKey := ⟨primitive.material, kind⟩
  let shared : Scene.Material :=
    ⟨material.name.getD "", kind, source.contents.map fun _ => materialFingerprint material kind⟩
  modify fun registry =>
    { registry with materials := Registry.enter registry.materials key shared }
  return Registry.place (← get).materials key

end SceneMarkup.Loading
