import SceneMarkup.Component.Conversion
import SceneMarkup.Proofs.Growth
import SceneMarkup.Proofs.Planning
import SceneMarkup.Proofs.Representatives

namespace SceneMarkup.Pruning

open Scene

/-!
# Scenes that are built

A scene starts with its root and changes by the operations on it: nodes are added
below any other one, nodes and tables are edited, and plans are committed,
whatever scene they were made for.  The arena stays a tree all along, and the
root alone may be marked as removed among the nodes that the root reaches.
-/

/-- What the operations on scenes lead to. -/
inductive Built : SceneGraph → Prop
  /-- A scene with nothing but a root. -/
  | ofRoot (name : String) : Built (SceneGraph.ofRoot name)
  /-- A node is added below any node of the arena, be it cut out or not. -/
  | add
      {graph : SceneGraph}
      {holder : NodeId}
      (built : Built graph)
      (inside : holder < graph.size)
      (node : Node) :
      Built (graph.add holder node)
  /-- Nodes and tables are edited; links and marks are left alone. -/
  | edit
      {graph other : SceneGraph}
      (built : Built graph)
      (links : graph.SameLinks other)
      (marks : ∀ id, other.isRemoved id = graph.isRemoved id) :
      Built other
  /-- Any plan is committed. -/
  | commit
      {graph : SceneGraph}
      (built : Built graph)
      (plan : Plan) :
      Built (commit graph plan)

/-- A new node is the only one that is newly reached. -/
theorem reached_add
    {graph : SceneGraph}
    {holder id : NodeId}
    (inside : holder < graph.size)
    (node : Node)
    (reached : (graph.add holder node).Reaches SceneGraph.root id) :
    id = graph.size ∨ graph.Reaches SceneGraph.root id := by
  induction reached with
  | refl => exact .inr (SceneGraph.Reaches.refl _)
  | @tail upper child _ member ih =>
      have listed : child ∈ ((graph.add holder node).node upper).children := member
      rw [SceneGraph.node_add inside] at listed
      split at listed
      next => cases listed
      next notNew =>
        have reachedUpper := ih.resolve_left notNew
        split at listed
        next =>
          rcases List.mem_append.mp listed with old | last
          · exact .inr (reachedUpper.trans (SceneGraph.Reaches.child old))
          · exact .inl (List.mem_singleton.mp last)
        next => exact .inr (reachedUpper.trans (SceneGraph.Reaches.child listed))

/-- Adding a node keeps a tree tidy. -/
theorem Tidy.add
    {graph : SceneGraph}
    {holder : NodeId}
    (tidy : Tidy graph)
    (linked : graph.Linked)
    (inside : holder < graph.size)
    (node : Node) :
    Tidy (graph.add holder node) := by
  intro id reached notRoot
  rw [SceneGraph.isRemoved_add]
  by_cases isNew : id = graph.size
  · exact linked.isRemoved_of_outside (isNew ▸ Nat.lt_irrefl _)
  · exact tidy id ((reached_add inside node reached).resolve_left isNew) notRoot

/-- A plan that was carried out leaves a tidy tree. -/
theorem tidy_commit
    {graph : SceneGraph}
    (linked : graph.Linked)
    (plan : Plan) :
    Tidy (commit graph plan) := by
  intro id reached notRoot
  have listed := (linked_commit linked plan).mem_traverse.mpr reached
  rw [traverse_commit linked, List.mem_filter] at listed
  simpa [SceneGraph.stays, notRoot] using listed.2

namespace Built

variable {graph : SceneGraph}

/-- What is built is a tree. -/
theorem linked
    (built : Built graph) :
    graph.Linked := by
  induction built with
  | ofRoot name => exact SceneGraph.linked_ofRoot name
  | add _ inside node ih => exact ih.add inside node
  | edit _ links _ ih => exact links.linked ih
  | commit _ plan ih => exact linked_commit ih plan

/-- What is built is tidy. -/
theorem tidy
    (built : Built graph) :
    Tidy graph := by
  induction built with
  | ofRoot name => exact tidy_of_untouched (SceneGraph.untouched_ofRoot name)
  | add built inside node ih => exact ih.add built.linked inside node
  | edit _ links marks ih =>
      intro id reached notRoot
      rw [links.reaches_eq] at reached
      rw [marks]
      exact ih id reached notRoot
  | commit built plan _ => exact tidy_commit built.linked plan

/-- Merging equal content edits nodes only. -/
theorem merge
    (built : Built graph) :
    Built graph.merge := by
  have size : graph.merge.size = graph.size := Array.size_map
  have kept :
      ∀ id,
        (graph.merge.node id).children = (graph.node id).children ∧
          (graph.merge.node id).parent = (graph.node id).parent := by
    intro id
    rw [graph.node_merge id]
    exact ⟨rfl, rfl⟩
  exact built.edit ⟨size, rfl, fun id => (kept id).1, fun id => (kept id).2⟩ fun _ => rfl

/-- A conversion leaves the scene alone or commits its plan. -/
theorem convert
    (built : Built graph)
    (fileName : String)
    (options : Options) :
    Built (Component.convert fileName graph options).graph := by
  unfold Component.convert
  simp only
  split
  next => exact built
  next => exact built.commit _

end Built

end SceneMarkup.Pruning
