import SceneMarkup.Loading.Objects

namespace SceneMarkup.Loading

open Json (Value Members)
open Scene (NodeKind MorphTargets)

/-!
# Blueprints

A blueprint is an object with the objects below it, before they get their places
in the arena.  A node of the asset becomes one object, its stand-in: what the
node carries, or a holder of that.
-/

/-- An object, the node of the asset that it stands for, and what is below it. -/
inductive Blueprint
  | object (node : Scene.Node) (standsFor : Option Nat) (children : List Blueprint)

namespace Blueprint

/-- An object that stands for no node and has nothing below it. -/
def leaf (node : Scene.Node) : Blueprint :=
  .object node none []

/-- The only object of a list, or else a group of all of them. -/
def bundle : List Blueprint → Blueprint
  | [single] => single
  | several => .object {} none several

end Blueprint

/-- The extension that lets a node draw several copies of its mesh. -/
def copiesName : String := "EXT_mesh_gpu_instancing"

/-- How many copies of its mesh a node draws: as many as its first attribute has elements. -/
def copyCount? (source : Source) (node : Gltf.Node) : Option Nat := do
  let extension ← node.extensions.other? copiesName
  let attributes ← extension.get? "attributes"
  match attributes with
  | .object members =>
      let index ← members.findSome? fun member => member.2.natural?
      (source.document.accessors[index]?).map (·.count)
  | _ => none

/-- The class of an object as one node uses it. -/
def usedKind (source : Source) (node : Gltf.Node) (kind : NodeKind) : NodeKind :=
  match kind, copyCount? source node, node.skin with
  | .mesh, some count, _ => .instancedMesh count
  | .mesh, none, some _ => .skinnedMesh
  | other, _, _ => other

/-- Lay weights over the influences, as far as there are any. -/
def weighted : List Float → List Float32 → List Float
  | _ :: influences, weight :: weights => weight.toFloat :: weighted influences weights
  | influences, _ => influences

/-- Blend in the shapes of an object by weights. -/
def blended (weights : Option (List Float32)) (morph : MorphTargets) : MorphTargets :=
  match weights with
  | some weights => { morph with influences := weighted morph.influences weights }
  | none => morph

/-- An object of a mesh as one node uses it. -/
def usedObject (source : Source) (node : Gltf.Node) (mesh : Gltf.Mesh) (object : Scene.Node) :
    Scene.Node :=
  { object with
    kind := usedKind source node object.kind
    morphTargets := object.morphTargets.map (blended (node.weights.orElse fun _ => mesh.weights)) }

/-- How many nodes of the asset draw a mesh. -/
def drawCount (source : Source) (index : Nat) : Nat :=
  (source.document.nodes.toList.filter fun node => node.mesh == some index).length

/-- Number the names of objects whose mesh is drawn by several nodes. -/
def numberedUse (source : Source) (index : Nat) (objects : List Scene.Node) :
    Building (List Scene.Node) := do
  if drawCount source index ≤ 1 then return objects
  let use := (Registry.find? (← get).uses index).getD 0
  modify fun registry => { registry with uses := Registry.assign registry.uses index (use + 1) }
  return objects.map fun object =>
    { object with name := object.name ++ "_instance_" ++ toString use }

/-- What stands for the mesh of a node. -/
def meshBlueprint (source : Source) (node : Gltf.Node) (index : Nat) (mesh : Gltf.Mesh) :
    Building Blueprint := do
  let built ← meshObjects source index mesh
  let objects ← numberedUse source index (built.map (usedObject source node mesh))
  return .bundle (objects.map .leaf)

/-- What stands for the things that a node carries: its mesh, its camera and its light. -/
def carried (source : Source) (node : Gltf.Node) : Building (List Blueprint) := do
  let document := source.document
  let meshes ← match node.mesh.bind fun index => (document.meshes[index]?).map (index, ·) with
    | some (index, mesh) => do pure [← meshBlueprint source node index mesh]
    | none => pure []
  let cameras ← match node.camera.bind fun index => document.cameras[index]? with
    | some camera => do pure [.leaf (← cameraObject camera)]
    | none => pure []
  let lights ← match node.light.bind fun index => (document.light? index).map (index, ·) with
    | some (index, light) => do pure [.leaf (← lightObject index light)]
    | none => pure []
  return meshes ++ cameras ++ lights

/-- Whether a node is a joint of a skeleton. -/
def isJoint (source : Source) (index : Nat) : Bool :=
  source.document.skins.any fun skin => skin.joints.contains index

/-- The object that will stand for a node, by what the node carries. -/
def holder (joint : Bool) (objects : List Blueprint) : Blueprint :=
  if joint then .object { kind := .bone } none objects
  else
    match objects with
    | [] => .leaf { kind := .object3D }
    | several => .bundle several

/-- User data of a stand-in: the node's own name and extras lie over what was there. -/
def standInData (node : Gltf.Node) (data : Members) : Members :=
  let named :=
    match node.name with
    | some name => Members.insert "name" (.text name) data
    | none => data
  (extrasMembers node.extras).foldl
    (fun members member => Members.insert member.1 member.2 members) named

/-- Make an object stand for a node. -/
def standIn (index : Nat) (node : Gltf.Node) (name : Option String) (children : List Blueprint) :
    Blueprint → Blueprint
  | .object object _ below =>
      .object
        { object with
          name := name.getD object.name
          transform := transformOf node.placement
          userData := standInData node object.userData }
        (some index) (below ++ children)

/-- Claim the name of a node, if it has one. -/
def claimNodeName (node : Gltf.Node) : Building (Option String) :=
  match node.name with
  | some name => some <$> claimName name
  | none => pure none

/--
The blueprint of the node at a place, with nodes at most `levels` deep below it.
The nodes of an asset form trees, so as many levels as there are nodes are enough.
-/
def blueprintOf (source : Source) : Nat → Nat → Building Blueprint
  | levels, index => do
      let node ← pure ((source.document.nodes[index]?).getD .absent)
      let name ← claimNodeName node
      let objects ← carried source node
      let children ←
        match levels with
        | 0 => pure []
        | fewer + 1 => node.children.mapM (blueprintOf source fewer)
      return standIn index node name children (holder (isJoint source index) objects)

end SceneMarkup.Loading
