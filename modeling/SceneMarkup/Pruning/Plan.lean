import SceneMarkup.Pruning.Rewrite

namespace SceneMarkup.Pruning

open Scene Markup

/-!
# Plans and their commitment

A plan lists which nodes go, for which reason, and which transforms survivors
get.  Committing it hands the children of every removed node to the nearest
survivor above, in place.
-/

/-- Decisions that have not been applied to the graph yet. -/
structure Plan where
  /-- Removed nodes in the order decided. -/
  removals : List (NodeId × Removal) := []
  /-- Transforms that replace a survivor's own, in the order of the tree. -/
  transforms : List (NodeId × Transform) := []
  deriving Repr, DecidableEq, Inhabited

/-- A plan that changes nothing. -/
def Plan.isEmpty (plan : Plan) : Bool :=
  plan.removals.isEmpty && plan.transforms.isEmpty

/-- The plan that a finished run stands for. -/
def planOf (graph : SceneGraph) (state : State) : Plan where
  removals := state.order.filterMap fun id => (state.removal id).map fun reason => (id, reason)
  transforms :=
    (graph.traverse SceneGraph.root).filterMap fun id =>
      if (state.removal id).isNone then
        (state.mark id).replacement.map fun transform => (id, transform)
      else none

/-- Look at every node outside bones, innermost first. -/
def run (labels : Labels) : Outcome :=
  rewriteAll labels (State.start labels.graph) (labels.graph.innermostFirst SceneGraph.root)

/-- A plan, or the fault that stopped the run, with the reports made either way. -/
structure Planning where
  result : Except Malformed Plan
  reports : List Report

/-- Decide which groups go. -/
def plan (labels : Labels) : Planning :=
  let outcome := run labels
  { result :=
      match outcome.fault with
      | some fault => .error fault
      | none => .ok (planOf labels.graph outcome.state)
    reports := outcome.state.reports.reverse }

/-- Cut a node out of the tree. -/
def detach (graph : SceneGraph) (id : NodeId) : SceneGraph :=
  graph.modify id Node.detached

/-- Tell `id` who its parent is. -/
def setParent (graph : SceneGraph) (parent id : NodeId) : SceneGraph :=
  graph.modify id fun node => { node with parent := some parent }

/-- Give `id` new children, who learn of their parent. -/
def setChildren (graph : SceneGraph) (id : NodeId) (children : List NodeId) : SceneGraph :=
  (children.foldl (fun graph child => setParent graph id child) graph).modify id
    fun node => { node with children := children }

/-- Cutting a node out keeps the arena. -/
theorem size_detach (graph : SceneGraph) (id : NodeId) :
    (detach graph id).size = graph.size :=
  graph.size_modify id _

/-- New links keep the arena. -/
theorem size_setChildren (graph : SceneGraph) (id : NodeId) (children : List NodeId) :
    (setChildren graph id children).size = graph.size := by
  have told :
      (children.foldl (fun graph child => setParent graph id child) graph).size = graph.size := by
    induction children generalizing graph with
    | nil => rfl
    | cons child rest ih => exact (ih (setParent graph id child)).trans (graph.size_modify child _)
  exact (SceneGraph.size_modify _ id _).trans told

/-- The arena of `graph` with other links. -/
abbrev Rewiring (graph : SceneGraph) :=
  { rewired : SceneGraph // rewired.size = graph.size }

/-- What comes after a later id of a rewired graph comes after `id` too. -/
def Rewiring.widen
    {graph : SceneGraph}
    {id : NodeId}
    (rewiring : Rewiring graph)
    (middle : graph.Later id)
    (last : rewiring.val.Later middle.val) :
    graph.Later id :=
  ⟨last.val, Nat.lt_trans middle.property.1 last.property.1,
    Nat.lt_of_lt_of_eq last.property.2 rewiring.property⟩

/-- Cut out the removed nodes right below `id` and right below each other; the survivors below
them, in order, are returned as the new children of `id`. -/
def splice (graph : SceneGraph) (id : NodeId) : Rewiring graph × List (graph.Later id) :=
  (graph.below id).foldl
    (fun (sofar : Rewiring graph × List (graph.Later id)) child =>
      if sofar.1.val.isRemoved child.val then
        let inner := splice sofar.1.val child.val
        (⟨detach inner.1.val child.val,
            (size_detach _ _).trans (inner.1.property.trans sofar.1.property)⟩,
          sofar.2 ++ inner.2.map (sofar.1.widen child))
      else (sofar.1, sofar.2 ++ [child]))
    (⟨graph, rfl⟩, [])
termination_by graph.size - id
decreasing_by rw [sofar.1.property]; exact child.closer

/-- Hand the survivors below `id` to it as children, and so on below each of them. -/
def relink (graph : SceneGraph) (id : NodeId) : Rewiring graph :=
  let spliced := splice graph id
  let linked : Rewiring graph :=
    ⟨setChildren spliced.1.val id (spliced.2.map (·.val)),
      (size_setChildren _ _ _).trans spliced.1.property⟩
  spliced.2.foldl
    (fun (sofar : Rewiring graph) child =>
      let inner := relink sofar.val child.val
      ⟨inner.val, inner.property.trans sofar.property⟩)
    linked
termination_by graph.size - id
decreasing_by rw [sofar.property]; exact child.closer

/-- Write the transforms of a plan and mark the nodes that it removes. -/
def markPlan (graph : SceneGraph) (plan : Plan) : SceneGraph :=
  let moved :=
    plan.transforms.foldl
      (fun graph entry => graph.modify entry.1 fun node => { node with transform := entry.2 })
      graph
  plan.removals.foldl (fun graph entry => graph.markRemoved entry.1) moved

/-- Apply a plan in place; the root keeps its place even when it is removed. -/
def commit (graph : SceneGraph) (plan : Plan) : SceneGraph :=
  (relink (markPlan graph plan) SceneGraph.root).val

end SceneMarkup.Pruning
