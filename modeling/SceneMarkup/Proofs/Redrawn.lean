import SceneMarkup.Proofs.Blocks
import SceneMarkup.Proofs.Commit

namespace SceneMarkup.Scene

open Markup

/-!
# Scenes that differ in links and places only

A commit moves nodes about and changes some transforms.  Names, classes and all
that a node carries by itself stay, so what is read from the labels of the old
scene may be read from those of the new one.  Only plain meshes look into the
index of shared pairs; what is said about groups holds for any index.
-/

/-- A node without its place: its transform and links are forgotten. -/
def Node.looks (node : Node) : Node :=
  { node with transform := .identity, parent := none, children := [] }

/-- Labels of two scenes whose nodes differ in place, links and mark only. -/
structure Labels.Redrawn (labels other : Labels) : Prop where
  options : other.options = labels.options
  names : ∀ id, other.name id = labels.name id
  targets : other.targets = labels.targets
  materials : other.graph.materials = labels.graph.materials
  looks : ∀ id, (other.graph.node id).looks = (labels.graph.node id).looks

/-- Made up names depend on the names and classes in the arena only. -/
theorem makeUpNames_congr
    {graph other : SceneGraph}
    (looks : ∀ id, (other.node id).looks = (graph.node id).looks)
    (used : List String)
    (ids : List NodeId) :
    makeUpNames other used ids = makeUpNames graph used ids := by
  induction ids generalizing used with
  | nil => rfl
  | cons id rest ih =>
      have base : other.baseName id = graph.baseName id := by
        have kind : (other.node id).kind = (graph.node id).kind := congrArg (·.kind) (looks id)
        rw [SceneGraph.baseName, SceneGraph.baseName, kind]
      rw [makeUpNames, makeUpNames, base, ih]

namespace Labels

/-- Labels of the same arena with other links, places and marks. -/
theorem redrawn_ofGraph
    {graph other : SceneGraph}
    (looks : ∀ id, (other.node id).looks = (graph.node id).looks)
    (size : other.size = graph.size)
    (tables : other = { graph with nodes := other.nodes, removed := other.removed })
    (index otherIndex : InstanceIndex)
    (options : Options) :
    Redrawn (ofGraph graph index options) (ofGraph other otherIndex options) := by
  have ids : other.ids = graph.ids := by
    rw [SceneGraph.ids, SceneGraph.ids, size]
  have names : ∀ id, (other.node id).name = (graph.node id).name :=
    fun id => congrArg (·.name) (looks id)
  have targets : other.targets = graph.targets := by
    rw [tables]
    rfl
  have used : other.usedNames = graph.usedNames := by
    simp only [SceneGraph.usedNames, ids, names]
  have unnamed : other.unnamedTargets = graph.unnamedTargets := by
    simp only [SceneGraph.unnamedTargets, ids, names, targets]
  have madeUp :
      makeUpNames other other.usedNames other.unnamedTargets =
        makeUpNames graph graph.usedNames graph.unnamedTargets := by
    rw [used, unnamed, makeUpNames_congr looks]
  refine ⟨rfl, ?_, targets, ?_, looks⟩
  · intro id
    simp only [name, ofGraph, madeUp, names]
  · show other.materials = graph.materials
    rw [tables]

/-- A commit changes nodes in place, links and mark only. -/
theorem looks_commit
    {graph : SceneGraph}
    (linked : graph.Linked)
    (plan : Pruning.Plan)
    (id : NodeId) :
    ((Pruning.commit graph plan).node id).looks = (graph.node id).looks := by
  by_cases inside : id < graph.size
  · rw [Pruning.node_commit_fields linked plan inside]
    rfl
  · have outside : ¬ id < (Pruning.commit graph plan).size := by
      rwa [Pruning.size_commit]
    rw [SceneGraph.node_eq_default inside, SceneGraph.node_eq_default outside]

/-- The nodes of a scene that was pruned differ in place, links and mark only. -/
theorem redrawn_commit
    {graph : SceneGraph}
    (linked : graph.Linked)
    (plan : Pruning.Plan)
    (index otherIndex : InstanceIndex)
    (options : Options) :
    Redrawn (ofGraph graph index options)
      (ofGraph (Pruning.commit graph plan) otherIndex options) :=
  redrawn_ofGraph (looks_commit linked plan) (Pruning.size_commit graph plan)
    (Pruning.commit_eq graph plan) index otherIndex options

namespace Redrawn

variable {labels other : Labels}

/-- A redrawn node is of the same kind. -/
theorem kind
    (redrawn : Redrawn labels other)
    (id : NodeId) :
    (other.graph.node id).kind = (labels.graph.node id).kind :=
  congrArg (·.kind) (redrawn.looks id)

/-- A redrawn node is as relevant as before. -/
theorem isRelevant
    (redrawn : Redrawn labels other)
    (id : NodeId) :
    other.isRelevant id = labels.isRelevant id := by
  have shapes : (other.graph.node id).morphTargets = (labels.graph.node id).morphTargets :=
    congrArg (·.morphTargets) (redrawn.looks id)
  simp only [Labels.isRelevant, Labels.isTarget, redrawn.targets, shapes]

/-- A redrawn node has the same expression. -/
theorem nodeExpression
    (redrawn : Redrawn labels other)
    (id : NodeId) :
    other.nodeExpression id = labels.nodeExpression id := by
  rw [Labels.nodeExpression, Labels.nodeExpression, redrawn.names]

/-- A redrawn node can be expressed exactly if it could be before. -/
theorem isExpressible
    (redrawn : Redrawn labels other)
    (id : NodeId) :
    Markup.isExpressible (other.graph.node id) =
      Markup.isExpressible (labels.graph.node id) := by
  have same := congrArg Markup.isExpressible (redrawn.looks id)
  exact same

/-- A transform is printed alike in a redrawn scene. -/
theorem printedTransform
    (redrawn : Redrawn labels other)
    (transform : Transform) :
    Markup.printedTransform other transform = Markup.printedTransform labels transform := by
  rw [Markup.printedTransform, Markup.printedTransform, redrawn.options]

/-- Contexts differ in the node's place only, if the node is drawn alike. -/
theorem context_eq
    (redrawn : Redrawn labels other)
    {id : NodeId}
    (shared : (other.sharedPair? id).isSome = (labels.sharedPair? id).isSome) :
    { NodeContext.ofLabels other id with node := (other.graph.node id).looks } =
      { NodeContext.ofLabels labels id with node := (labels.graph.node id).looks } := by
  have surface : (other.graph.node id).material = (labels.graph.node id).material :=
    congrArg (·.material) (redrawn.looks id)
  simp only [NodeContext.ofLabels, redrawn.names, redrawn.nodeExpression, redrawn.looks,
    redrawn.options, shared, surface, SceneGraph.material, redrawn.materials]

/-- What a node prints besides its transform is the same, if it is drawn alike. -/
theorem isBare_of_shared
    (redrawn : Redrawn labels other)
    {id : NodeId}
    (shared : (other.sharedPair? id).isSome = (labels.sharedPair? id).isSome) :
    Markup.isBare other id = Markup.isBare labels id := by
  have same := congrArg NodeContext.isBare (redrawn.context_eq shared)
  exact same

/-- Groups are never drawn through an instance. -/
theorem sharedPair?_of_group
    {id : NodeId}
    (group : (labels.graph.node id).kind.isGroup = true) :
    labels.sharedPair? id = none := by
  unfold Labels.sharedPair?
  cases kind : (labels.graph.node id).kind <;>
    simp [kind, NodeKind.isGroup, NodeKind.isPlainMesh] at group ⊢

/-- The same groups are bare, whatever the index. -/
theorem isBare_of_group
    (redrawn : Redrawn labels other)
    {id : NodeId}
    (group : (labels.graph.node id).kind.isGroup = true) :
    Markup.isBare other id = Markup.isBare labels id := by
  have otherGroup : (other.graph.node id).kind.isGroup = true := by
    rw [redrawn.kind, group]
  exact redrawn.isBare_of_shared (by
    rw [sharedPair?_of_group group, sharedPair?_of_group otherGroup])

/-- With the same index, a node draws through the same instance. -/
theorem sharedPair?_of_index
    (redrawn : Redrawn labels other)
    (index : other.index = labels.index)
    (id : NodeId) :
    other.sharedPair? id = labels.sharedPair? id := by
  have geometry : (other.graph.node id).geometry = (labels.graph.node id).geometry :=
    congrArg (·.geometry) (redrawn.looks id)
  have surface : (other.graph.node id).material = (labels.graph.node id).material :=
    congrArg (·.material) (redrawn.looks id)
  simp only [Labels.sharedPair?, index, redrawn.options, redrawn.kind, geometry, surface]

/-- With the same index, a node prints the same attributes at the same transform. -/
theorem attributesAt_of_index
    (redrawn : Redrawn labels other)
    (index : other.index = labels.index)
    (id : NodeId)
    (transform : Transform) :
    attributesAt other id transform = attributesAt labels id transform := by
  have shared : (other.sharedPair? id).isSome = (labels.sharedPair? id).isSome := by
    rw [redrawn.sharedPair?_of_index index]
  have same :=
    congrArg (fun context : NodeContext => context.attributes transform)
      (redrawn.context_eq shared)
  exact same

end Redrawn

end Labels

end SceneMarkup.Scene
