import SceneMarkup.Markup.Angle
import SceneMarkup.Markup.Attribute
import SceneMarkup.Scene.Labels

namespace SceneMarkup.Markup

open Scene

/-!
# The tag and the attributes of a node

The tag of an element is the name of its class with a small first letter.
Cameras are components and keep the capital; plain objects are groups.

Attributes are listed in blocks, in the order written: camera, blanket shadows,
what a node that is no instance carries, color, transform, user data.  What
equals the default at run time, to the chosen precision, is left out.
-/

/-- The tag for the name of a class. -/
def tagOfTypeName (typeName : String) : String :=
  match typeName with
  | "Object3D" => "group"
  | "PerspectiveCamera" => typeName
  | "OrthographicCamera" => typeName
  | _ =>
      match typeName.toList with
      | [] => ""
      | first :: rest => String.ofList (first.toLower :: rest)

/-- Tags of elements that only hold other elements. -/
def isGroupTag (tag : String) : Bool :=
  tag == "group" || tag == "scene"

/-- The tag of handles into a skeleton. -/
def isBoneTag (tag : String) : Bool :=
  tag == "bone"

/-- The tag of a class of nodes. -/
def tagOf (kind : NodeKind) : String :=
  tagOfTypeName kind.typeName

/-- A node that no element can express. -/
inductive Malformed
  /-- A mesh that draws copies of itself lacks its geometry or its material. -/
  | missingSurface (name : String)
  deriving Repr, DecidableEq

/-- The wording of the fault. -/
def Malformed.message : Malformed → String
  | .missingSurface name =>
      "Malformed node [" ++ name ++ "]: instanced mesh without geometry or material"

/-- Everything that the attributes of one node depend on. -/
structure NodeContext where
  node : Node
  /-- The name that the node is written with. -/
  name : String
  /-- The expression that reaches the node. -/
  expression : String
  /-- The node is drawn through a shared instance. -/
  instanced : Bool
  /-- The name of the node's material; empty when it has none. -/
  materialName : String
  options : Options

/-- The context of the node at `id`. -/
def NodeContext.ofLabels (labels : Labels) (id : NodeId) : NodeContext where
  node := labels.graph.node id
  name := labels.name id
  expression := labels.nodeExpression id
  instanced := (labels.sharedPair? id).isSome
  materialName :=
    match (labels.graph.node id).material with
    | some material => (labels.graph.material material).name
    | none => ""
  options := labels.options

/-- The attribute, if the condition holds. -/
def given (condition : Bool) (entry : Attribute) : Attributes :=
  if condition then [entry] else []

/-- Whether a number differs from a default after rounding. -/
def differs (x : Float) (precision : UInt32) (fallback : Float) : Bool :=
  !Float.beq (Decimal.roundTo x precision) fallback

/-- A number attribute, unless it equals the default after rounding. -/
def unlessDefault
    (key : AttributeKey)
    (x : Float)
    (precision : UInt32)
    (fallback : Float) :
    Attributes :=
  given (differs x precision fallback) (.expression key (numberText x precision))

/-- A number attribute that may be absent altogether. -/
def unlessAbsent
    (key : AttributeKey)
    (x : Option Float)
    (precision : UInt32)
    (fallback : Float) :
    Attributes :=
  match x with
  | some x => unlessDefault key x precision fallback
  | none => []

/-- Three texts as an array expression. -/
def tripleText (x y z : String) : String :=
  "[" ++ x ++ ", " ++ y ++ ", " ++ z ++ "]"

/-- A vector of rounded numbers. -/
def vectorText (v : Vector) (precision : UInt32) : String :=
  tripleText (numberText v.x precision) (numberText v.y precision) (numberText v.z precision)

/-- A vector of angles. -/
def anglesText (v : Vector) (precision : UInt32) : String :=
  tripleText (angleText v.x precision) (angleText v.y precision) (angleText v.z precision)

/-- A color channel held between zero and one; what is no number counts as zero. -/
def clampedChannel (x : Float) : Float :=
  let low := if 0.0 < x then x else 0.0
  if low < 1.0 then low else 1.0

/-- The two hexadecimal digits of a color channel. -/
def channelText (x : Float) : String :=
  let level := (Decimal.roundHalfAway (clampedChannel x * 255.0)).toUInt8.toNat
  String.ofList [Json.hexDigit (level / 16), Json.hexDigit (level % 16)]

/-- The six hexadecimal digits of a color. -/
def colorText (color : Vector) : String :=
  channelText color.x ++ channelText color.y ++ channelText color.z

/-- Settings of a camera. -/
def cameraAttributes (camera : Camera) (precision : UInt32) : Attributes :=
  [.expression .makeDefault "false"]
    ++ unlessDefault .zoom camera.zoom precision 1.0
    ++ unlessDefault .far camera.far precision 2000.0
    ++ unlessDefault .near camera.near precision 0.1
    ++ match camera.projection with
      | .perspective fieldOfView _ => unlessDefault .fov fieldOfView precision 50.0
      | .orthographic _ _ => []

/-- Settings of a light, other than its color. -/
def lightAttributes (light : Light) (precision : UInt32) : Attributes :=
  unlessDefault .intensity light.intensity precision 0.0
    ++ (match light.angle with
      | some angle =>
          given (Decimal.angleSteps angle != Decimal.angleSteps thirdOfPi)
            (.expression .angle (angleText angle precision))
      | none => [])
    ++ unlessAbsent .penumbra light.penumbra precision 0.0
    ++ unlessAbsent .decay light.decay precision 1.0
    ++ unlessAbsent .distance light.distance precision 0.0

/-- The color of a light, unless it is white. -/
def colorAttributes (light : Light) : Attributes :=
  let color := colorText light.color
  given (color != "ffffff") (.text .color ("#" ++ color))

/-- Position, rotation and scale that the rounded transform does not leave at rest. -/
def transformAttributes (transform : Transform) (precision : UInt32) : Attributes :=
  let scale := transform.scale.map fun x => Decimal.roundTo x precision
  given (differs transform.position.length precision 0.0)
      (.expression .position (vectorText transform.position precision))
    ++ given (differs transform.rotation.length precision 0.0)
      (.expression .rotation (anglesText transform.rotation precision))
    ++ given (!scale.agrees .one)
      (.expression .scale
        (if Float.beq scale.x scale.y && Float.beq scale.x scale.z then
          numberText scale.x precision
        else vectorText scale precision))

namespace NodeContext

/-- Both shadows are written for every mesh. -/
def blanketShadows (context : NodeContext) : Bool :=
  context.options.shadows && context.node.kind.isMesh

/-- What a camera carries. -/
def cameraBlock (context : NodeContext) : Attributes :=
  match context.node.kind with
  | .camera camera => cameraAttributes camera context.options.precision
  | _ => []

/-- Shadows that the settings ask for. -/
def shadowBlock (context : NodeContext) : Attributes :=
  if context.blanketShadows then [.flag .castShadow, .flag .receiveShadow] else []

/-- The material attribute: by its name, or through the node when it has none. -/
def materialAttribute (context : NodeContext) : Attribute :=
  .expression .material
    (if context.materialName.isEmpty then context.expression ++ ".material"
    else "materials" ++ Text.memberAccess context.materialName)

/-- Geometry and material, or the arguments of a mesh that draws several copies. -/
def surfaceBlock (context : NodeContext) : Except Malformed Attributes :=
  match context.node.kind with
  | .instancedMesh count =>
      if context.node.geometry.isNone || context.node.material.isNone then
        .error (.missingSurface context.name)
      else
        .ok [
          .expression .args
            (tripleText (context.expression ++ ".geometry") (context.expression ++ ".material")
              (toString count)),
          .expression .instanceMatrix (context.expression ++ ".instanceMatrix")]
  | _ =>
      .ok (given context.node.geometry.isSome
          (.expression .geometry (context.expression ++ ".geometry"))
        ++ given context.node.material.isSome context.materialAttribute)

/-- What is left of a node's own settings after its surface. -/
def ownBlock (context : NodeContext) : Attributes :=
  let node := context.node
  given node.kind.isSkinnedMesh (.expression .skeleton (context.expression ++ ".skeleton"))
    ++ given (!node.visible) (.expression .visible "false")
    ++ given (node.castShadow && !context.blanketShadows) (.flag .castShadow)
    ++ given (node.receiveShadow && !context.blanketShadows) (.flag .receiveShadow)
    ++ given node.morphTargets.isSome
      (.expression .morphTargetDictionary (context.expression ++ ".morphTargetDictionary"))
    ++ given node.morphTargets.isSome
      (.expression .morphTargetInfluences (context.expression ++ ".morphTargetInfluences"))
    ++ (match node.kind with
      | .light light => lightAttributes light context.options.precision
      | _ => [])
    ++ given (!node.up.agrees .up) (.expression .up (vectorText node.up context.options.precision))

/-- The color of a light. -/
def colorBlock (context : NodeContext) : Attributes :=
  match context.node.kind with
  | .light light => colorAttributes light
  | _ => []

/-- User data, when the settings ask for it. -/
def dataBlock (context : NodeContext) : Attributes :=
  given (context.options.includeData && !context.node.userData.isEmpty)
    (.expression .userData (Json.Value.object context.node.userData).compact)

/-- The attributes of a node that stands at `transform`, in the order written. -/
def attributes (context : NodeContext) (transform : Transform) : Except Malformed Attributes :=
  let drawn : Except Malformed Attributes :=
    if context.instanced then .ok []
    else context.surfaceBlock.map fun surface => surface ++ context.ownBlock
  drawn.map fun drawn =>
    context.cameraBlock ++ context.shadowBlock ++ drawn ++ context.colorBlock
      ++ transformAttributes transform context.options.precision ++ context.dataBlock

end NodeContext

/-- The attributes of the node at `id`, as if it stood at `transform`. -/
def attributesAt (labels : Labels) (id : NodeId) (transform : Transform) :
    Except Malformed Attributes :=
  (NodeContext.ofLabels labels id).attributes transform

/-- The attributes of the node at `id` where it stands. -/
def attributesOf (labels : Labels) (id : NodeId) : Except Malformed Attributes :=
  attributesAt labels id (labels.graph.node id).transform

end SceneMarkup.Markup
