import SceneMarkup.Json.Value
import SceneMarkup.Scene.Vector

namespace SceneMarkup.Scene

/-!
# Nodes of a scene

What an object of the scene is, where it stands, what it draws, and what it is
called.
-/

/-- A place in the arena of nodes. -/
abbrev NodeId := Nat

/-- A place in the table of geometries. -/
abbrev GeometryId := Nat

/-- A place in the table of materials. -/
abbrev MaterialId := Nat

/-- How a line joins its points. -/
inductive LineKind
  | strip
  | segments
  | loop
  deriving Repr, DecidableEq

/-- How a camera projects. -/
inductive Projection
  /-- A vertical field of view in degrees, and the aspect ratio if it is fixed. -/
  | perspective (fieldOfView : Float) (aspectRatio : Option Float)
  /-- Half extents of the viewed box. -/
  | orthographic (halfWidth halfHeight : Float)
  deriving Repr, DecidableEq

/-- A camera; a fresh one has no zoom and sees from `0.1` to `2000`. -/
structure Camera where
  projection : Projection := .perspective 50.0 none
  zoom : Float := 1.0
  near : Float := 0.1
  far : Float := 2000.0
  deriving Repr, DecidableEq

/-- The name of the camera's class at run time. -/
def Camera.typeName (camera : Camera) : String :=
  match camera.projection with
  | .perspective _ _ => "PerspectiveCamera"
  | .orthographic _ _ => "OrthographicCamera"

/-- Where the rays of a light come from. -/
inductive LightKind
  | directional
  | point
  | spot
  deriving Repr, DecidableEq

/-- The name of the light's class at run time. -/
def LightKind.typeName : LightKind → String
  | .directional => "DirectionalLight"
  | .point => "PointLight"
  | .spot => "SpotLight"

/-- A light; a property that its class lacks is absent. -/
structure Light where
  kind : LightKind
  /-- Linear red, green and blue. -/
  color : Vector
  intensity : Float
  distance : Option Float
  decay : Option Float
  /-- Half the opening of the cone, in radians. -/
  angle : Option Float
  penumbra : Option Float
  deriving Repr, DecidableEq

/-- A third of half a turn. -/
def thirdOfPi : Float := 1.0471975511965979

/-- A white light of intensity one with the defaults of its class. -/
def Light.ofKind (kind : LightKind) : Light where
  kind := kind
  color := .one
  intensity := 1.0
  distance := match kind with
    | .directional => none
    | _ => some 0.0
  decay := match kind with
    | .directional => none
    | _ => some 1.0
  angle := match kind with
    | .spot => some thirdOfPi
    | _ => none
  penumbra := match kind with
    | .spot => some 0.0
    | _ => none

/-- The class of an object, with what only that class has. -/
inductive NodeKind
  | group
  | object3D
  | mesh
  | skinnedMesh
  /-- A mesh that already draws `count` copies of itself. -/
  | instancedMesh (count : Nat)
  | bone
  | camera (camera : Camera)
  | light (light : Light)
  | line (kind : LineKind)
  | points
  deriving Repr, DecidableEq

namespace NodeKind

/-- The name of the class at run time. -/
def typeName : NodeKind → String
  | .group => "Group"
  | .object3D => "Object3D"
  | .mesh => "Mesh"
  | .skinnedMesh => "SkinnedMesh"
  | .instancedMesh _ => "InstancedMesh"
  | .bone => "Bone"
  | .camera device => device.typeName
  | .light lamp => lamp.kind.typeName
  | .line .strip => "Line"
  | .line .segments => "LineSegments"
  | .line .loop => "LineLoop"
  | .points => "Points"

/-- Meshes of every class. -/
def isMesh : NodeKind → Bool
  | .mesh => true
  | .skinnedMesh => true
  | .instancedMesh _ => true
  | _ => false

/-- Meshes that can be drawn through a shared instance. -/
def isPlainMesh : NodeKind → Bool
  | .mesh => true
  | _ => false

/-- Objects that only hold other objects. -/
def isGroup : NodeKind → Bool
  | .group => true
  | .object3D => true
  | _ => false

/-- Handles into a skeleton. -/
def isBone : NodeKind → Bool
  | .bone => true
  | _ => false

/-- Meshes that draw several copies by themselves. -/
def isInstancedMesh : NodeKind → Bool
  | .instancedMesh _ => true
  | _ => false

/-- Meshes that follow a skeleton. -/
def isSkinnedMesh : NodeKind → Bool
  | .skinnedMesh => true
  | _ => false

end NodeKind

/-- Names of the shapes that a mesh blends, and their current weights. -/
structure MorphTargets where
  names : List String
  influences : List Float
  deriving Repr, DecidableEq

/-- One object of the scene. -/
structure Node where
  name : String := ""
  kind : NodeKind := .group
  transform : Transform := .identity
  up : Vector := .up
  geometry : Option GeometryId := none
  material : Option MaterialId := none
  children : List NodeId := []
  parent : Option NodeId := none
  visible : Bool := true
  castShadow : Bool := false
  receiveShadow : Bool := false
  morphTargets : Option MorphTargets := none
  userData : Json.Members := []
  deriving Repr, Inhabited

/-- The node without links to others. -/
def Node.detached (node : Node) : Node :=
  { node with parent := none, children := [] }

/-- What content was read to make a geometry or a material, item by item. -/
inductive Ingredient
  | word (value : Nat)
  | bytes (values : List UInt8)
  deriving Repr, DecidableEq

/-- Equal content has equal fingerprints. -/
abbrev Fingerprint := List Ingredient

/-- Vertex data shared between nodes. -/
structure Geometry where
  /-- Known when the loader was asked to look at the content. -/
  fingerprint : Option Fingerprint := none
  deriving Repr, DecidableEq, Inhabited

/-- Families of materials. -/
inductive MaterialKind
  | standard
  | basic
  | points
  | line
  deriving Repr, DecidableEq

/-- The name of the family's class at run time. -/
def MaterialKind.typeName : MaterialKind → String
  | .standard => "MeshStandardMaterial"
  | .basic => "MeshBasicMaterial"
  | .points => "PointsMaterial"
  | .line => "LineBasicMaterial"

/-- A surface shared between nodes; its name may be empty or repeated. -/
structure Material where
  name : String := ""
  kind : MaterialKind := .standard
  /-- Known when the loader was asked to look at the content; the name plays no part. -/
  fingerprint : Option Fingerprint := none
  deriving Repr, DecidableEq, Inhabited

/-- An animation clip; of its channels only the driven nodes matter here. -/
structure Clip where
  name : String := ""
  /-- Driven nodes in the order first seen. -/
  targets : List NodeId := []
  deriving Repr, DecidableEq, Inhabited

/-- Count `node` among the driven nodes. -/
def Clip.drive (clip : Clip) (node : NodeId) : Clip :=
  if clip.targets.contains node then clip else { clip with targets := clip.targets ++ [node] }

end SceneMarkup.Scene
