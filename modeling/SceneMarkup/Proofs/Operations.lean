import SceneMarkup.Proofs.Building

namespace SceneMarkup.Pruning

open Scene

/-!
# The operations on a scene

A scene can be grown, pruned by a plan that was made for it or for another one,
merged and converted, in any order.  Each operation turns a scene that was built
into one that was built, so the arena is a tree after any number of them.
-/

/-- One thing that is done to a scene. -/
inductive Operation
  | add (holder : NodeId) (node : Node)
  | commit (plan : Plan)
  | merge
  | convert (fileName : String) (options : Options)

namespace Operation

/-- The ids that an operation names are in the arena. -/
def InRange (graph : SceneGraph) : Operation → Prop
  | .add holder _ => holder < graph.size
  | .commit plan =>
      (∀ entry ∈ plan.removals, entry.1 < graph.size) ∧
        ∀ entry ∈ plan.transforms, entry.1 < graph.size
  | .merge => True
  | .convert _ _ => True

instance (graph : SceneGraph) (operation : Operation) : Decidable (operation.InRange graph) :=
  match operation with
  | .add holder _ => inferInstanceAs (Decidable (holder < graph.size))
  | .commit plan =>
      inferInstanceAs (Decidable ((∀ entry ∈ plan.removals, entry.1 < graph.size) ∧
        ∀ entry ∈ plan.transforms, entry.1 < graph.size))
  | .merge => inferInstanceAs (Decidable True)
  | .convert _ _ => inferInstanceAs (Decidable True)

/-- The scene that an operation leaves. -/
def apply (graph : SceneGraph) : Operation → SceneGraph
  | .add holder node => graph.add holder node
  | .commit plan => Pruning.commit graph plan
  | .merge => graph.merge
  | .convert fileName options => (Component.convert fileName graph options).graph

/-- The scene that operations leave when they are done one after another. -/
def applyAll (graph : SceneGraph) (operations : List Operation) : SceneGraph :=
  operations.foldl apply graph

/-- Every operation names ids of the arena that it finds. -/
def AllInRange (graph : SceneGraph) : List Operation → Prop
  | [] => True
  | operation :: rest =>
      operation.InRange graph ∧ AllInRange (operation.apply graph) rest

instance decideAllInRange :
    ∀ (operations : List Operation) (graph : SceneGraph), Decidable (AllInRange graph operations)
  | [], _ => inferInstanceAs (Decidable True)
  | operation :: rest, graph =>
      have := decideAllInRange rest (operation.apply graph)
      inferInstanceAs
        (Decidable (operation.InRange graph ∧ AllInRange (operation.apply graph) rest))

end Operation

namespace Built

variable {graph : SceneGraph}

theorem apply
    (built : Built graph)
    {operation : Operation}
    (inRange : operation.InRange graph) :
    Built (operation.apply graph) := by
  cases operation with
  | add holder node => exact built.add inRange node
  | commit plan => exact built.commit plan
  | merge => exact built.merge
  | convert fileName options => exact built.convert fileName options

theorem applyAll
    (built : Built graph)
    {operations : List Operation}
    (inRange : Operation.AllInRange graph operations) :
    Built (Operation.applyAll graph operations) := by
  induction operations generalizing graph with
  | nil =>
      exact built
  | cons operation rest ih =>
      obtain ⟨here, further⟩ := inRange
      exact ih (built.apply here) further

end Built

/-- Marks belong to nodes of the arena. -/
theorem inside_of_isRemoved
    {graph : SceneGraph}
    (linked : graph.Linked)
    {id : NodeId}
    (removed : graph.isRemoved id = true) :
    id < graph.size := by
  by_contra outside
  rw [linked.isRemoved_of_outside outside] at removed
  cases removed

/-- A way down over at least one link leads to a larger id. -/
theorem lt_of_transGen
    {graph : SceneGraph}
    (linked : graph.Linked)
    {upper lower : NodeId}
    (down : Relation.TransGen (fun holder child => child ∈ graph.children holder) upper lower) :
    upper < lower := by
  induction down with
  | single member =>
      exact (linked.forward member).1
  | tail _ member ih =>
      exact Nat.lt_trans ih (linked.forward member).1

/--
Whatever operations are done to a new scene, its arena is a tree: child lists and
parent links say the same, no child is listed twice, children have larger ids
than their parents, so that no way down returns to where it started, and nothing
is above the root.  Every node has one mark of removal, and among the nodes that
the root reaches only the root itself can be marked.
-/
theorem operations_keep_tree
    {name : String}
    {operations : List Operation}
    (inRange : Operation.AllInRange (SceneGraph.ofRoot name) operations) :
    let graph := Operation.applyAll (SceneGraph.ofRoot name) operations
    (∀ holder child, child ∈ graph.children holder ↔ (graph.node child).parent = some holder) ∧
      (∀ holder, (graph.children holder).Nodup) ∧
      (∀ holder, ∀ child ∈ graph.children holder, holder < child ∧ child < graph.size) ∧
      (∀ id,
        ¬ Relation.TransGen (fun holder child => child ∈ graph.children holder) id id) ∧
      (graph.node SceneGraph.root).parent = none ∧
      graph.removed.size = graph.size ∧
      (∀ id, graph.isRemoved id = true → id < graph.size) ∧
      (∀ id, graph.Reaches SceneGraph.root id → graph.isRemoved id = true →
        id = SceneGraph.root) := by
  intro graph
  have built : Built graph := (Built.ofRoot name).applyAll inRange
  have linked : graph.Linked := built.linked
  refine ⟨?_, linked.distinct, ?_, ?_, linked.root_orphan, linked.marked, ?_, ?_⟩
  · intro holder child
    exact ⟨linked.parent_of_mem, linked.mem_of_parent⟩
  · intro holder child member
    exact linked.forward member
  · intro id around
    exact Nat.lt_irrefl id (lt_of_transGen linked around)
  · intro id removed
    exact inside_of_isRemoved linked removed
  · intro id reached removed
    by_contra notRoot
    rw [built.tidy id reached notRoot] at removed
    cases removed

/-- A group is cut out together with the root, a mesh is added below the group that is gone, and
the same plan is committed once more before the scene is merged and converted. -/
def reworked : List Operation :=
  [.add 0 { name := "Wrapper" }, .add 1 { name := "Box", kind := .mesh },
    .commit ⟨[(1, .empty), (0, .empty)], [(2, .identity)]⟩,
    .add 1 { name := "Stray", kind := .mesh }, .add 3 { name := "Below" },
    .commit ⟨[(1, .empty), (0, .empty), (4, .noContent)], []⟩,
    .merge, .convert "box.glb" {}]

/-- The box hangs from the marked root, and the stray mesh from the marked group. -/
theorem operations_keep_tree_reworked :
    let graph := Operation.applyAll (SceneGraph.ofRoot "Scene") reworked
    Operation.AllInRange (SceneGraph.ofRoot "Scene") reworked ∧
      graph.isRemoved 0 = true ∧ graph.isRemoved 1 = true ∧
      (graph.node 2).parent = some 0 ∧ 2 ∈ graph.children 0 ∧
      (graph.node 3).parent = some 1 ∧ 3 ∈ graph.children 1 ∧
      ¬ graph.Reaches SceneGraph.root 1 := by
  intro graph
  have inRange : Operation.AllInRange (SceneGraph.ofRoot "Scene") reworked := by
    decide +kernel
  obtain ⟨children, _, _, _, _, _, _, marks⟩ := operations_keep_tree inRange
  have box : (graph.node 2).parent = some 0 := by decide +kernel
  have stray : (graph.node 3).parent = some 1 := by decide +kernel
  have gone : graph.isRemoved 1 = true := by decide +kernel
  refine ⟨inRange, by decide +kernel, gone, box, (children 0 2).mpr box, stray,
    (children 1 3).mpr stray, ?_⟩
  intro reached
  cases marks 1 reached gone

end SceneMarkup.Pruning
