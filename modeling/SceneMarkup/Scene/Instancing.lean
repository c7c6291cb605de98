import SceneMarkup.Options.Basic
import SceneMarkup.Scene.Graph
import SceneMarkup.Text.Names

namespace SceneMarkup.Scene

/-!
# Shared pairs of geometry and material

Plain meshes that draw the same pair can be drawn through one instance.  The
index lists the pairs in the order of their first mesh, with unique names.
-/

/-- A pair of geometry and material, and the meshes that draw it. -/
structure SharedPair where
  geometry : GeometryId
  material : MaterialId
  /-- How many meshes draw the pair. -/
  count : Nat
  /-- Unique name of the instance component. -/
  name : String
  /-- Expression that reaches the first mesh in the table of loaded nodes. -/
  node : String
  deriving Repr, DecidableEq

/-- What an entry is found by. -/
def SharedPair.key (pair : SharedPair) : GeometryId × MaterialId :=
  (pair.geometry, pair.material)

/-- The ASCII letters of a node's name, the first one capital; `Part` when it has none. -/
def componentName (nodeName : String) : String :=
  match nodeName.toList.filter Char.isAlpha with
  | [] => "Part"
  | first :: rest => String.ofList (first.toUpper :: rest)

/-- The expression that reaches the node called `name` in the table of loaded nodes. -/
def nodeExpression (name : String) : String :=
  "nodes" ++ Text.memberAccess name

/-- The pairs of a scene in the order of their first mesh, and a table that leads from each pair to
the place of its entry. -/
structure InstanceIndex where
  pairs : List SharedPair := []
  places : List ((GeometryId × MaterialId) × Nat) := []
  deriving Repr, DecidableEq

namespace InstanceIndex

/-- The index of a list of entries. -/
def ofPairs (pairs : List SharedPair) : InstanceIndex where
  pairs := pairs
  places := pairs.zipIdx.map fun entry => (entry.1.key, entry.2)

/-- Count one more mesh for a pair; the first mesh of a pair adds an entry. -/
def recordPair
    (index : InstanceIndex)
    (geometry : GeometryId)
    (material : MaterialId)
    (nodeName : String) :
    InstanceIndex :=
  match index.places.lookup (geometry, material) with
  | some place =>
      { index with
        pairs := index.pairs.modify place fun pair => { pair with count := pair.count + 1 } }
  | none =>
      let name :=
        Text.firstFree (index.pairs.map (·.name)) (Text.numbered "" (componentName nodeName))
      { pairs := index.pairs ++ [⟨geometry, material, 1, name, nodeExpression nodeName⟩]
        places := ((geometry, material), index.pairs.length) :: index.places }

/-- Count a node if it is a plain mesh with a geometry and a material. -/
def recordNode (index : InstanceIndex) (node : Node) : InstanceIndex :=
  match node.kind.isPlainMesh, node.geometry, node.material with
  | true, some geometry, some material => index.recordPair geometry material node.name
  | _, _, _ => index

/-- Scan the plain meshes outside of bones; a pair with a single mesh is kept on request.  As entries
are dropped, the table is made anew. -/
def analyze (graph : SceneGraph) (options : Options) : InstanceIndex :=
  let scanned : InstanceIndex :=
    (graph.outsideBones SceneGraph.root).foldl (fun index id => index.recordNode (graph.node id)) {}
  ofPairs
    (if options.instanceAll then scanned.pairs else scanned.pairs.filter fun pair => pair.count > 1)

/-- The entry for a geometry and a material. -/
def get? (index : InstanceIndex) (geometry : GeometryId) (material : MaterialId) :
    Option SharedPair :=
  (index.places.lookup (geometry, material)).bind fun place => index.pairs[place]?

/-- Whether no pair is listed. -/
def isEmpty (index : InstanceIndex) : Bool :=
  index.pairs.isEmpty

end InstanceIndex

end SceneMarkup.Scene
