import SceneMarkup.Json.Writer
import SceneMarkup.Scene.Labels

namespace SceneMarkup.Component

open Scene

/-!
# The type of a loaded asset

A typed module declares the nodes and materials that it may refer to: every
mesh, every bone that hangs from no other bone, and every named material.
-/

/-- Keep the first of the pairs with one key. -/
def firstOfEachKey : List (String × String) → List (String × String)
  | [] => []
  | entry :: rest => entry :: (firstOfEachKey rest).filter fun later => later.1 != entry.1

/-- Whether a node is a bone that hangs from no other bone. -/
def isRootBone (graph : SceneGraph) (id : NodeId) : Bool :=
  let node := graph.node id
  node.kind.isBone
    && !(match node.parent with
      | some parent => (graph.node parent).kind.isBone
      | none => false)

/-- Names and classes of the nodes to declare: meshes first, then root bones. -/
def declaredNodes (labels : Labels) : List (String × String) :=
  let graph := labels.graph
  let nodes := graph.traverse SceneGraph.root
  let chosen :=
    (nodes.filter fun id => (graph.node id).kind.isMesh) ++ nodes.filter (isRootBone graph)
  firstOfEachKey (chosen.map fun id => (labels.name id, (graph.node id).kind.typeName))

/-- Names and classes of the materials to declare, in the order of the tree. -/
def declaredMaterials (graph : SceneGraph) : List (String × String) :=
  let used := (graph.traverse SceneGraph.root).filterMap fun id => (graph.node id).material
  let named := (used.map graph.material).filter fun material => !material.name.isEmpty
  firstOfEachKey (named.map fun material => (material.name, material.kind.typeName))

/-- One line for every declared key. -/
def declarations (entries : List (String × String)) : String :=
  String.join (entries.map fun entry =>
    "    " ++ Text.propertyKey entry.1 ++ ": THREE." ++ entry.2 ++ "\n")

/-- The types of the clips' names and actions, when there are clips. -/
def actionTypes (clips : List Clip) : String :=
  if clips.isEmpty then ""
  else
    "\ntype ActionName = " ++ " | ".intercalate (clips.map fun clip => Json.quotedText clip.name)
      ++ "\ntype GLTFActions = Record<ActionName, THREE.AnimationAction>\n"

/-- The type of what the asset hook returns. -/
def resultType (labels : Labels) : String :=
  "type GLTFResult = GLTF & \x7b\n  nodes: \x7b\n" ++ declarations (declaredNodes labels)
    ++ "  \x7d\n  materials: \x7b\n" ++ declarations (declaredMaterials labels.graph)
    ++ "  \x7d\n\x7d\n" ++ actionTypes labels.graph.clips

end SceneMarkup.Component
