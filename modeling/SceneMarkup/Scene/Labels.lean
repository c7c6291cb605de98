import SceneMarkup.Scene.Instancing

namespace SceneMarkup.Scene

/-!
# What each node is called and how it is drawn

Animation tracks find their node by name, so an unnamed node that a clip drives
gets a fresh name.  All lookups of a node go through one record of labels and
agree on that name.
-/

/-- The context that labels are read from, with the names made up for it. -/
structure Labels where
  graph : SceneGraph
  index : InstanceIndex
  options : Options
  /-- Nodes driven by some clip. -/
  targets : List NodeId
  /-- Names made up for driven nodes without one. -/
  madeUp : List (NodeId × String)

/-- Every node driven by some clip. -/
def SceneGraph.targets (graph : SceneGraph) : List NodeId :=
  graph.clips.flatMap (·.targets)

/-- Names that some node has already. -/
def SceneGraph.usedNames (graph : SceneGraph) : List String :=
  (graph.ids.map fun id => (graph.node id).name).filter fun name => !name.isEmpty

/-- Driven nodes without a name, in the order of the arena. -/
def SceneGraph.unnamedTargets (graph : SceneGraph) : List NodeId :=
  graph.ids.filter fun id => graph.targets.contains id && (graph.node id).name.isEmpty

/-- The name that an unnamed node asks for: its class and its place in the arena. -/
def SceneGraph.baseName (graph : SceneGraph) (id : NodeId) : String :=
  (graph.node id).kind.typeName ++ "_" ++ toString id

/-- Make up names for the given nodes, each different from the names used so far. -/
def makeUpNames (graph : SceneGraph) (used : List String) : List NodeId → List (NodeId × String)
  | [] => []
  | id :: rest =>
      let name := Text.firstFree used (Text.numbered "_" (graph.baseName id))
      (id, name) :: makeUpNames graph (name :: used) rest

namespace Labels

/-- Labels of a scene. -/
def ofGraph (graph : SceneGraph) (index : InstanceIndex) (options : Options) : Labels where
  graph := graph
  index := index
  options := options
  targets := graph.targets
  madeUp := makeUpNames graph graph.usedNames graph.unnamedTargets

/-- The name of a node: the made-up one, if there is one, else its own. -/
def name (labels : Labels) (id : NodeId) : String :=
  match labels.madeUp.lookup id with
  | some name => name
  | none => (labels.graph.node id).name

/-- The expression that reaches a node in the table of loaded nodes. -/
def nodeExpression (labels : Labels) (id : NodeId) : String :=
  Scene.nodeExpression (labels.name id)

/-- Whether the scene has a clip. -/
def animated (labels : Labels) : Bool :=
  !labels.graph.clips.isEmpty

/-- Whether some clip drives the node. -/
def isTarget (labels : Labels) (id : NodeId) : Bool :=
  labels.targets.contains id

/-- Driven nodes and nodes with morph targets are always named and never pruned. -/
def isRelevant (labels : Labels) (id : NodeId) : Bool :=
  labels.isTarget id || (labels.graph.node id).morphTargets.isSome

/-- The pair that a node is drawn through, if the settings draw it as an instance. -/
def sharedPair? (labels : Labels) (id : NodeId) : Option SharedPair :=
  let node := labels.graph.node id
  let threshold := if labels.options.instanceAll then 0 else 1
  match labels.options.instancing && node.kind.isPlainMesh, node.geometry, node.material with
  | true, some geometry, some material =>
      (labels.index.get? geometry material).filter fun pair => pair.count > threshold
  | _, _, _ => none

end Labels

end SceneMarkup.Scene
