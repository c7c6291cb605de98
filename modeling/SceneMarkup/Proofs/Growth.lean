import SceneMarkup.Proofs.Tree

namespace SceneMarkup.Scene.SceneGraph

/-!
# Growing a tree

A graph starts with its root, and every node is added as the last child of one
that is there.  So every graph that is built this way is a tree, and none of
its nodes is removed.
-/

theorem size_add
    (graph : SceneGraph)
    (holder : NodeId)
    (node : Node) :
    (graph.add holder node).size = graph.size + 1 := by
  simp [add, size, modify]

/-- Adding a node appends it and lists it below its holder; the others stay as they are. -/
theorem node_add
    {graph : SceneGraph}
    {holder : NodeId}
    (inside : holder < graph.size)
    (node : Node)
    (id : NodeId) :
    (graph.add holder node).node id =
      if id = graph.size then { node with parent := some holder, children := [] }
      else if id = holder then
        { graph.node id with children := graph.children id ++ [graph.size] }
      else graph.node id := by
  have pushed :
      (graph.add holder node).node id =
        if id = graph.size then
          { node with parent := some holder, children := [] }
        else
          (graph.modify holder fun parent =>
            { parent with children := parent.children ++ [graph.size] }).node id := by
    simp only [add, SceneGraph.node, Array.getD_eq_getD_getElem?, Array.getElem?_push]
    have size : (graph.modify holder fun parent =>
        { parent with children := parent.children ++ [graph.size] }).nodes.size = graph.size :=
      graph.size_modify holder _
    by_cases last : id = graph.size <;> simp [last, size]
  rw [pushed, node_modify]
  by_cases last : id = graph.size
  · rw [if_pos last, if_pos last]
  · by_cases here : holder = id
    · subst here
      rw [if_neg last, if_neg last, if_pos ⟨rfl, inside⟩, if_pos rfl]
      rfl
    · rw [if_neg last, if_neg last, if_neg fun both => here both.1, if_neg (Ne.symm here)]

/-- A new node is not marked, and no other mark changes. -/
theorem isRemoved_add
    (graph : SceneGraph)
    (holder : NodeId)
    (node : Node)
    (id : NodeId) :
    (graph.add holder node).isRemoved id = graph.isRemoved id := by
  simp only [add, isRemoved, modify, Array.getD_eq_getD_getElem?, Array.getElem?_push]
  split
  next last => simp [last]
  next => rfl

/-- A root alone is a tree. -/
theorem linked_ofRoot
    (name : String) :
    (ofRoot name).Linked := by
  have bare :
      ∀ id, ((ofRoot name).node id).children = [] ∧ ((ofRoot name).node id).parent = none := by
    intro id
    cases id with
    | zero => exact ⟨rfl, rfl⟩
    | succ id => exact ⟨rfl, rfl⟩
  refine ⟨Nat.one_pos, rfl, ?_, ?_, ?_, ?_⟩
  · intro holder child member
    rw [children, (bare holder).1] at member
    cases member
  · intro holder child member
    rw [children, (bare holder).1] at member
    cases member
  · intro holder child parent
    rw [(bare child).2] at parent
    cases parent
  · intro holder
    rw [children, (bare holder).1]
    exact List.nodup_nil

/-- A node that is added is one more child of the node that holds it. -/
theorem mem_children_add
    {graph : SceneGraph}
    {holder upper child : NodeId}
    (inside : holder < graph.size)
    (node : Node) :
    child ∈ (graph.add holder node).children upper ↔
      child ∈ graph.children upper ∨ (upper = holder ∧ child = graph.size) := by
  have notLast : holder ≠ graph.size := Nat.ne_of_lt inside
  rw [children, node_add inside]
  by_cases last : upper = graph.size
  · have none : graph.children upper = [] := by
      rw [children, node_eq_default (last ▸ Nat.lt_irrefl _)]
      rfl
    rw [if_pos last, none, last]
    simp [Ne.symm notLast]
  · by_cases here : upper = holder
    · simp [here, notLast]
    · rw [if_neg last, if_neg here, children]
      simp [here]

/-- Adding below a node of the arena keeps the tree a tree. -/
theorem Linked.add
    {graph : SceneGraph}
    {holder : NodeId}
    (linked : graph.Linked)
    (inside : holder < graph.size)
    (node : Node) :
    (graph.add holder node).Linked where
  rooted := by
    rw [size_add]
    exact Nat.succ_pos _
  marked := by
    rw [size_add, ← linked.marked]
    exact Array.size_push false
  forward := by
    intro upper child member
    rw [size_add]
    rcases (mem_children_add inside node).mp member with old | ⟨atHolder, atLast⟩
    · exact ⟨(linked.forward old).1, Nat.lt_succ_of_lt (linked.forward old).2⟩
    · exact ⟨atHolder ▸ atLast ▸ inside, atLast ▸ Nat.lt_succ_self _⟩
  parent_of_mem := by
    intro upper child member
    rw [node_add inside]
    rcases (mem_children_add inside node).mp member with old | ⟨atHolder, atLast⟩
    · have notNew : child ≠ graph.size := Nat.ne_of_lt (linked.forward old).2
      rw [if_neg notNew]
      split
      next => exact linked.parent_of_mem old
      next => exact linked.parent_of_mem old
    · rw [if_pos atLast, atHolder]
  mem_of_parent := by
    intro upper child parent
    rw [node_add inside] at parent
    rw [mem_children_add inside]
    by_cases atLast : child = graph.size
    · rw [if_pos atLast] at parent
      exact .inr ⟨(Option.some.inj parent).symm, atLast⟩
    · rw [if_neg atLast] at parent
      refine .inl (linked.mem_of_parent ?_)
      split at parent
      next => exact parent
      next => exact parent
  distinct := by
    intro upper
    have fresh : graph.size ∉ graph.children upper :=
      fun member => Nat.lt_irrefl _ (linked.forward member).2
    rw [children, node_add inside]
    split
    next => exact List.nodup_nil
    next =>
      split
      next =>
        refine List.nodup_append.mpr ⟨linked.distinct upper, List.nodup_singleton _, ?_⟩
        intro child member last lastMember same
        rw [List.mem_singleton] at lastMember
        exact fresh (lastMember ▸ same ▸ member)
      next => exact linked.distinct upper

/-- Nothing in the arena is removed. -/
def Untouched (graph : SceneGraph) : Prop :=
  ∀ id, graph.isRemoved id = false

/-- Nothing is removed if the table holds no mark. -/
theorem untouched_of_not_mem
    {graph : SceneGraph}
    (unmarked : true ∉ graph.removed.toList) :
    graph.Untouched := by
  intro id
  rw [isRemoved, Array.getD_eq_getD_getElem?]
  cases found : graph.removed[id]? with
  | none => rfl
  | some mark =>
      cases mark with
      | false => rfl
      | true => exact absurd (Array.mem_toList_iff.mpr (Array.mem_of_getElem? found)) unmarked

/-- In a new scene nothing is removed. -/
theorem untouched_ofRoot
    (name : String) :
    (ofRoot name).Untouched := by
  intro id
  cases id with
  | zero => rfl
  | succ id => rfl

/-- Adding a node removes nothing. -/
theorem Untouched.add
    {graph : SceneGraph}
    (untouched : graph.Untouched)
    (holder : NodeId)
    (node : Node) :
    (graph.add holder node).Untouched :=
  fun id => (graph.isRemoved_add holder node id).trans (untouched id)

end SceneMarkup.Scene.SceneGraph
