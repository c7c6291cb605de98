import SceneMarkup.Scene.Node

namespace SceneMarkup.Scene

/-!
# The scene graph

Nodes live in an arena and are never deleted; node `0` is the root.  What pruning
takes out of the tree is marked in a table beside the arena, which has one mark for
every node.  A child is added after its parent, so links from parent to child point
forward, and every walk below follows forward links only: it ends whatever the arena
holds.
-/

/-- A scene: its nodes, the tables they share, its clips, and notes of its author. -/
structure SceneGraph where
  nodes : Array Node
  /-- For every node of the arena whether pruning took it out of the tree. -/
  removed : Array Bool
  geometries : Array Geometry := #[]
  materials : Array Material := #[]
  clips : List Clip := []
  extras : Option Json.Members := none
  deriving Repr, Inhabited

namespace SceneGraph

/-- A graph that holds only a root group. -/
def ofRoot (name : String) : SceneGraph where
  nodes := #[{ name := name }]
  removed := #[false]

/-- The root of every graph. -/
def root : NodeId := 0

/-- How many nodes the arena holds. -/
def size (graph : SceneGraph) : Nat :=
  graph.nodes.size

/-- The node at `id`. -/
def node (graph : SceneGraph) (id : NodeId) : Node :=
  graph.nodes.getD id default

/-- All ids of the arena, in order. -/
def ids (graph : SceneGraph) : List NodeId :=
  List.range graph.size

/-- The children of `id`, in order. -/
def children (graph : SceneGraph) (id : NodeId) : List NodeId :=
  (graph.node id).children

/-- Whether pruning took `id` out of the tree. -/
def isRemoved (graph : SceneGraph) (id : NodeId) : Bool :=
  graph.removed.getD id false

/-- The material at `id`. -/
def material (graph : SceneGraph) (id : MaterialId) : Material :=
  graph.materials.getD id default

/-- Change the node at `id`. -/
def modify (graph : SceneGraph) (id : NodeId) (change : Node → Node) : SceneGraph :=
  { graph with nodes := graph.nodes.modify id change }

/-- A change keeps the arena. -/
@[simp] theorem size_modify (graph : SceneGraph) (id : NodeId) (change : Node → Node) :
    (graph.modify id change).size = graph.size := by
  simp [modify, size]

/-- A change of a node leaves the marks alone. -/
@[simp] theorem isRemoved_modify (graph : SceneGraph) (id other : NodeId) (change : Node → Node) :
    (graph.modify id change).isRemoved other = graph.isRemoved other :=
  rfl

/-- A change at `id` is seen at `id` only. -/
theorem node_modify
    (graph : SceneGraph)
    (id other : NodeId)
    (change : Node → Node) :
    (graph.modify id change).node other =
      if id = other ∧ other < graph.size then change (graph.node other)
      else graph.node other := by
  simp only [modify, node, size, Array.getD_eq_getD_getElem?, Array.getElem?_modify]
  by_cases inside : other < graph.nodes.size
  · by_cases same : id = other <;> simp [inside, same]
  · simp [inside]

/-- Past the arena there are only default nodes. -/
theorem node_eq_default
    {graph : SceneGraph}
    {id : NodeId}
    (outside : ¬ id < graph.size) :
    graph.node id = default := by
  simp only [node, Array.getD_eq_getD_getElem?]
  simp [show graph.nodes.size ≤ id from Nat.le_of_not_lt outside]

/-- Mark `id` as taken out of the tree. -/
def markRemoved (graph : SceneGraph) (id : NodeId) : SceneGraph :=
  { graph with removed := graph.removed.setIfInBounds id true }

/-- A mark changes no node. -/
@[simp] theorem node_markRemoved (graph : SceneGraph) (id other : NodeId) :
    (graph.markRemoved id).node other = graph.node other :=
  rfl

/-- A mark is seen where it is made, if the table reaches that far. -/
theorem isRemoved_markRemoved (graph : SceneGraph) (id other : NodeId) :
    (graph.markRemoved id).isRemoved other =
      if id = other ∧ other < graph.removed.size then true else graph.isRemoved other := by
  simp only [markRemoved, isRemoved, Array.getD_eq_getD_getElem?, Array.getElem?_setIfInBounds]
  by_cases inside : other < graph.removed.size
  · by_cases same : id = other <;> simp [same, inside]
  · by_cases same : id = other <;> simp [same, inside]

/-- Append `node` to the arena as the last child of `parent`; the table of marks grows with it. -/
def add (graph : SceneGraph) (parent : NodeId) (node : Node) : SceneGraph :=
  let id := graph.size
  let linked : SceneGraph :=
    graph.modify parent fun holder => { holder with children := holder.children ++ [id] }
  let child : Node := { node with parent := some parent, children := [] }
  { linked with nodes := linked.nodes.push child, removed := linked.removed.push false }

/-- The ids that come after `id` in the arena. -/
abbrev Later (graph : SceneGraph) (id : NodeId) :=
  { later : NodeId // id < later ∧ later < graph.size }

/-- What comes after a later id comes after `id` too. -/
def Later.widen
    {graph : SceneGraph}
    {id : NodeId}
    (middle : graph.Later id)
    (last : graph.Later middle.val) :
    graph.Later id :=
  ⟨last.val, Nat.lt_trans middle.property.1 last.property.1, last.property.2⟩

/-- Fewer ids come after a later id. -/
theorem Later.closer
    {graph : SceneGraph}
    {id : NodeId}
    (later : graph.Later id) :
    graph.size - later.val < graph.size - id := by
  obtain ⟨after, inside⟩ := later.property
  exact Nat.sub_lt_sub_left (Nat.lt_trans after inside) after

/-- The children of `id` that its links reach by going forward. -/
def below (graph : SceneGraph) (id : NodeId) : List (graph.Later id) :=
  (graph.children id).filterMap fun child =>
    if forward : id < child ∧ child < graph.size then some ⟨child, forward⟩ else none

/-- The numbers of a list, added up. -/
def total : List Nat → Nat
  | [] => 0
  | first :: rest => first + total rest

/-- The parts of a list add up to the whole. -/
theorem total_append (left right : List Nat) :
    total (left ++ right) = total left + total right := by
  induction left with
  | nil => simp [total]
  | cons first rest ih => simp [total, ih, Nat.add_assoc]

/-- How many steps a walk from `id` takes. -/
def weight (graph : SceneGraph) (id : NodeId) : Nat :=
  1 + total ((graph.below id).map fun child => weight graph child.val)
termination_by graph.size - id
decreasing_by exact child.closer

/-- Visit the ids on a stack, top first; a visited id leaves its children on the stack. -/
def walk (graph : SceneGraph) : List NodeId → List NodeId
  | [] => []
  | id :: rest => id :: walk graph ((graph.below id).map (·.val) ++ rest)
termination_by stack => total (stack.map graph.weight)
decreasing_by
  have steps :
      graph.weight id = 1 + total ((graph.below id).map fun child => graph.weight child.val) := by
    rw [weight]
  simp only [List.map_append, List.map_map, total_append, List.map_cons, total, steps,
    Function.comp_def]
  omega

/-- Every node reachable from `id`, `id` first, depth first. -/
def traverse (graph : SceneGraph) (id : NodeId) : List NodeId :=
  graph.walk [id]

/-- The reachable nodes that are not at or below a bone, depth first. -/
def outsideBones (graph : SceneGraph) (id : NodeId) : List NodeId :=
  if (graph.node id).kind.isBone then []
  else id :: (graph.below id).flatMap fun child => outsideBones graph child.val
termination_by graph.size - id
decreasing_by exact child.closer

/-- The reachable nodes that are not at or below a bone, each after everything below it. -/
def innermostFirst (graph : SceneGraph) (id : NodeId) : List NodeId :=
  if (graph.node id).kind.isBone then []
  else ((graph.below id).flatMap fun child => innermostFirst graph child.val) ++ [id]
termination_by graph.size - id
decreasing_by exact child.closer

end SceneGraph

end SceneMarkup.Scene
