import SceneMarkup.Gltf.Accessor

namespace SceneMarkup.Gltf

open Json (Tree Record)

/-!
# Cameras and lights
-/

/-- A projection with vanishing points; the field of view is an angle in radians. -/
structure Perspective where
  aspectRatio : Option Float32
  fieldOfView : Float32
  far : Option Float32
  near : Float32
  deriving Repr

/-- A projection without vanishing points. -/
structure Orthographic where
  halfWidth : Float32
  halfHeight : Float32
  far : Float32
  near : Float32
  deriving Repr

/-- Which of its projections a camera uses. -/
inductive CameraType
  | perspective
  | orthographic
  deriving Repr, DecidableEq

/-- The camera type with the given name. -/
def CameraType.ofName? (name : String) : Option CameraType :=
  match name with
  | "perspective" => some .perspective
  | "orthographic" => some .orthographic
  | _ => none

/-- A camera. -/
structure Camera where
  name : Option String
  cameraType : Option CameraType
  perspective : Option Perspective
  orthographic : Option Orthographic
  extras : Tree
  deriving Repr

/-- Where the rays of a light come from. -/
inductive LightType
  | directional
  | point
  | spot
  deriving Repr, DecidableEq

/-- The light type with the given name. -/
def LightType.ofName? (name : String) : Option LightType :=
  match name with
  | "directional" => some .directional
  | "point" => some .point
  | "spot" => some .spot
  | _ => none

/-- The cone of a spot light; angles from its axis, in radians. -/
structure Cone where
  inner : Float32
  outer : Float32
  deriving Repr

/-- A quarter of half a turn. -/
def quarterOfPi : Float32 :=
  (0.7853981633974483 : Float).toFloat32

/-- The cone of a spot light that says nothing about it. -/
def Cone.fresh : Cone :=
  ⟨0.0, quarterOfPi⟩

/-- A light. -/
structure Light where
  name : Option String
  color : Triple
  intensity : Float32
  range : Option Float32
  cone : Option Cone
  lightType : Option LightType
  deriving Repr

namespace Perspective

/-- Read a projection with vanishing points. -/
def ofTree? (tree : Tree) : Option Perspective := do
  let record ← Record.ofTree?
    ["aspectRatio", "yfov", "zfar", "znear", "extensions", "extras"] 4 tree
  let _ ← Additions.ofRecord? record 4 []
  return {
    aspectRatio := ← record.optional? "aspectRatio" single?
    fieldOfView := ← record.required? "yfov" single?
    far := ← record.optional? "zfar" single?
    near := ← record.required? "znear" single? }

end Perspective

namespace Orthographic

/-- Read a projection without vanishing points. -/
def ofTree? (tree : Tree) : Option Orthographic := do
  let record ← Record.ofTree? ["xmag", "ymag", "zfar", "znear", "extensions", "extras"] 4 tree
  let _ ← Additions.ofRecord? record 4 []
  return {
    halfWidth := ← record.required? "xmag" single?
    halfHeight := ← record.required? "ymag" single?
    far := ← record.required? "zfar" single?
    near := ← record.required? "znear" single? }

end Orthographic

namespace Camera

/-- Read a camera. -/
def ofTree? (tree : Tree) : Option Camera := do
  let record ← Record.ofTree?
    ["name", "orthographic", "perspective", "type", "extensions", "extras"] 4 tree
  let additions ← Additions.ofRecord? record 3 []
  return {
    name := ← record.optional? "name" Tree.text?
    cameraType := ← record.required? "type" (named? CameraType.ofName?)
    perspective := ← record.optional? "perspective" Perspective.ofTree?
    orthographic := ← record.optional? "orthographic" Orthographic.ofTree?
    extras := additions.extras }

end Camera

namespace Cone

/-- Read a cone. -/
def ofTree? (tree : Tree) : Option Cone := do
  let record ← Record.ofTree? ["innerConeAngle", "outerConeAngle"] 0 tree
  return {
    inner := ← record.given? "innerConeAngle" fresh.inner single?
    outer := ← record.given? "outerConeAngle" fresh.outer single? }

end Cone

namespace Light

/-- Read a light. -/
def ofTree? (tree : Tree) : Option Light := do
  let record ← Record.ofTree?
    ["color", "extras", "intensity", "name", "range", "spot", "type"] 7 tree
  let _ ← Additions.extrasOf? record
  return {
    name := ← record.optional? "name" Tree.text?
    color := ← record.given? "color" ⟨1.0, 1.0, 1.0⟩ Triple.ofTree?
    intensity := ← record.given? "intensity" 1.0 single?
    range := ← record.optional? "range" single?
    cone := ← record.optional? "spot" Cone.ofTree?
    lightType := ← record.required? "type" (named? LightType.ofName?) }

/-- Read the lights of an asset. -/
def listOfTree? (tree : Tree) : Option (List Light) := do
  let record ← Record.ofTree? ["lights"] 1 tree
  record.required? "lights" (Tree.list? ofTree?)

end Light

end SceneMarkup.Gltf
