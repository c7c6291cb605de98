import SceneMarkup.Json.Writer
import SceneMarkup.Loading.Registry
import SceneMarkup.Loading.Rotation

namespace SceneMarkup.Loading

open Json (Tree Value Members)
open Scene (NodeKind MorphTargets Vector)

/-!
# Objects

Objects stand for what nodes carry: cameras, lights, and the primitives of
meshes.
-/

/-- The members of extras; extras that are no object have none. -/
def extrasMembers (extras : Tree) : Members :=
  match extras.value? Tree.nestingLimit with
  | some (.object members) => members
  | _ => []

/-- Degrees in a radian. -/
def degreesPerRadian : Float := 180.0 / 3.141592653589793

/-- Without a far plane a camera sees this far. -/
def farthest : Float := 2000000.0

/-- A perspective camera; a near plane in front of nothing is moved to one. -/
def ofPerspective (projection : Gltf.Perspective) : Scene.Camera where
  projection := .perspective (projection.fieldOfView.toFloat * degreesPerRadian)
    (projection.aspectRatio.map (·.toFloat))
  near := if projection.near.toFloat > 0.0 then projection.near.toFloat else 1.0
  far := (projection.far.map (·.toFloat)).getD farthest

/-- An orthographic camera. -/
def ofOrthographic (projection : Gltf.Orthographic) : Scene.Camera where
  projection := .orthographic projection.halfWidth.toFloat projection.halfHeight.toFloat
  near := projection.near.toFloat
  far := projection.far.toFloat

/-- The camera that an asset describes. -/
def cameraOf (camera : Gltf.Camera) : Scene.Camera :=
  match camera.cameraType, camera.perspective, camera.orthographic with
  | some .perspective, some projection, _ => ofPerspective projection
  | some .orthographic, _, some projection => ofOrthographic projection
  | _, _, _ => {}

/-- How much of the cone of a spot light lies in its soft border. -/
def penumbraOf (cone : Gltf.Cone) : Float :=
  if cone.outer.toFloat > 0.0 then 1.0 - cone.inner.toFloat / cone.outer.toFloat else 0.0

/-- The light that an asset describes; light falls off with the square of the distance. -/
def lightOf (light : Gltf.Light) : Scene.Light :=
  let range := (light.range.map (·.toFloat)).getD 0.0
  let cone := light.cone.getD .fresh
  let color : Vector := widened light.color
  let intensity := light.intensity.toFloat
  match light.lightType with
  | some .point => ⟨.point, color, intensity, some range, some 2.0, none, none⟩
  | some .spot =>
      ⟨.spot, color, intensity, some range, some 2.0, some cone.outer.toFloat,
        some (penumbraOf cone)⟩
  | _ => ⟨.directional, color, intensity, none, none, none, none⟩

/-- The object of a camera. -/
def cameraObject (camera : Gltf.Camera) : Building Scene.Node := do
  let name ← match camera.name with
    | some name => claimName name
    | none => pure ""
  return {
    name := name
    kind := .camera (cameraOf camera)
    userData := extrasMembers camera.extras }

/-- The object of a light. -/
def lightObject (index : Nat) (light : Gltf.Light) : Building Scene.Node := do
  let name ← claimName (light.name.getD ("light_" ++ toString index))
  return { name := name, kind := .light (lightOf light) }

/-- The class of the object that draws a primitive. -/
def drawnKind (mode : Gltf.Mode) : NodeKind :=
  match mode with
  | .points => .points
  | .lines => .line .segments
  | .lineLoop => .line .loop
  | .lineStrip => .line .strip
  | .triangles => .mesh
  | .triangleStrip => .mesh
  | .triangleFan => .mesh

/-- The text of a name given by a value. -/
def nameText : Value → String
  | .text text => text
  | value => value.compact

/-- The names of `count` shapes: those that extras list, or else their numbers. -/
def shapeNames (extras : Members) (count : Nat) : List String :=
  let numbers := (List.range count).map fun number => toString number
  match Members.get? extras "targetNames" with
  | some (.array names) => if names.length = count then names.map nameText else numbers
  | _ => numbers

/-- The shapes that a primitive can blend towards, none of them blended in yet. -/
def shapesOf (extras : Members) (count : Nat) : Option MorphTargets :=
  if count = 0 then none
  else some ⟨shapeNames extras count, List.replicate count 0.0⟩

/-- The object of one primitive of a mesh. -/
def primitiveObject (source : Source) (base : String) (extras : Members)
    (primitive : Gltf.Primitive) : Building Scene.Node := do
  let name ← claimName base
  let geometry ← claimGeometry source primitive
  let material ← claimMaterial source primitive
  return {
    name := name
    kind := drawnKind (primitive.mode.getD .triangles)
    geometry := some geometry
    material := some material
    morphTargets := shapesOf extras primitive.targets.length
    userData := extras }

/-- The objects of the primitives of a mesh. -/
def primitiveObjects (source : Source) (index : Nat) (mesh : Gltf.Mesh) :
    Building (List Scene.Node) :=
  mesh.primitives.mapM
    (primitiveObject source (mesh.name.getD ("mesh_" ++ toString index))
      (extrasMembers mesh.extras))

/-- The objects of a mesh, built when the mesh is used for the first time. -/
def meshObjects (source : Source) (index : Nat) (mesh : Gltf.Mesh) :
    Building (List Scene.Node) := do
  match Registry.find? (← get).meshes index with
  | some built => return built
  | none => do
      let built ← primitiveObjects source index mesh
      modify fun registry => { registry with meshes := Registry.assign registry.meshes index built }
      return built

end SceneMarkup.Loading
