import Mathlib.Data.List.Nodup
import Mathlib.Logic.Relation
import SceneMarkup.Scene.Graph

namespace SceneMarkup.Scene.SceneGraph

/-!
# Scene graphs as trees

Child lists and parent links of a linked graph say the same, and every child
comes after its parent.  Such a graph is a tree below each of its nodes: two
ways up from a node never part, so subtrees of different siblings are apart.
-/

/-- Child links lead from the upper node down to the lower one, in any number of steps. -/
def Reaches (graph : SceneGraph) : NodeId → NodeId → Prop :=
  Relation.ReflTransGen fun holder child => child ∈ graph.children holder

/-- Parent links and child lists agree, children come after their parents, and the table of marks
is as long as the arena. -/
structure Linked (graph : SceneGraph) : Prop where
  rooted : 0 < graph.size
  marked : graph.removed.size = graph.size
  forward :
    ∀ {holder child : NodeId},
      child ∈ graph.children holder → holder < child ∧ child < graph.size
  parent_of_mem :
    ∀ {holder child : NodeId},
      child ∈ graph.children holder → (graph.node child).parent = some holder
  mem_of_parent :
    ∀ {holder child : NodeId},
      (graph.node child).parent = some holder → child ∈ graph.children holder
  distinct : ∀ holder : NodeId, (graph.children holder).Nodup

namespace Reaches

theorem refl
    {graph : SceneGraph}
    (id : NodeId) :
    graph.Reaches id id :=
  Relation.ReflTransGen.refl

theorem child
    {graph : SceneGraph}
    {holder child : NodeId}
    (member : child ∈ graph.children holder) :
    graph.Reaches holder child :=
  Relation.ReflTransGen.single member

theorem trans
    {graph : SceneGraph}
    {upper middle lower : NodeId}
    (first : graph.Reaches upper middle)
    (second : graph.Reaches middle lower) :
    graph.Reaches upper lower :=
  Relation.ReflTransGen.trans first second

/-- A way down is empty or starts with a child. -/
theorem head_iff
    {graph : SceneGraph}
    {upper lower : NodeId} :
    graph.Reaches upper lower ↔
      upper = lower ∨
        ∃ child ∈ graph.children upper, graph.Reaches child lower := by
  constructor
  · intro reaches
    rcases Relation.ReflTransGen.cases_head reaches with
      same | ⟨child, member, rest⟩
    · exact .inl same
    · exact .inr ⟨child, member, rest⟩
  · rintro (same | ⟨child, member, rest⟩)
    · exact same ▸ refl upper
    · exact (Reaches.child member).trans rest

/-- A way down is empty or ends with a step from the parent. -/
theorem tail_iff
    {graph : SceneGraph}
    {upper lower : NodeId} :
    graph.Reaches upper lower ↔
      upper = lower ∨
        ∃ holder, graph.Reaches upper holder ∧ lower ∈ graph.children holder := by
  constructor
  · intro reaches
    rcases Relation.ReflTransGen.cases_tail reaches with
      same | ⟨holder, rest, member⟩
    · exact .inl same.symm
    · exact .inr ⟨holder, rest, member⟩
  · rintro (same | ⟨holder, rest, member⟩)
    · exact same ▸ refl upper
    · exact rest.trans (Reaches.child member)

/-- What is reached differs from what is not. -/
theorem ne_of_not_reaches
    {graph : SceneGraph}
    {upper other lower : NodeId}
    (reaches : graph.Reaches upper other)
    (apart : ¬ graph.Reaches upper lower) :
    other ≠ lower := by
  rintro rfl
  exact apart reaches

end Reaches

theorem ne_of_not_reaches
    {graph : SceneGraph}
    {upper lower : NodeId}
    (apart : ¬ graph.Reaches upper lower) :
    upper ≠ lower :=
  (Reaches.refl upper).ne_of_not_reaches apart

/-- There is nothing below a node without children. -/
theorem below_of_no_children
    {graph : SceneGraph}
    {id : NodeId}
    (none : graph.children id = []) :
    graph.below id = [] := by
  rw [below, none]
  rfl

/-- Children that all come later are all among the later ones. -/
theorem below_val_of_forward
    {graph : SceneGraph}
    {id : NodeId}
    (forward :
      ∀ child ∈ graph.children id, id < child ∧ child < graph.size) :
    (graph.below id).map (·.val) = graph.children id := by
  unfold below
  generalize graph.children id = children at forward
  induction children with
  | nil => rfl
  | cons child rest ih =>
      have here := forward child (by simp)
      have there := ih fun other member => forward other (by simp [member])
      simp [here, there]

namespace Linked

variable {graph : SceneGraph}

theorem below_val
    (linked : graph.Linked)
    (id : NodeId) :
    (graph.below id).map (·.val) = graph.children id :=
  below_val_of_forward fun _ member => linked.forward member

theorem below_flatMap
    (linked : graph.Linked)
    (id : NodeId)
    (f : NodeId → List β) :
    ((graph.below id).flatMap fun child => f child.val) =
      (graph.children id).flatMap f := by
  rw [← linked.below_val id, List.flatMap_map]

/-- What is reached from a node does not come before it. -/
theorem le_of_reaches
    (linked : graph.Linked)
    {upper lower : NodeId}
    (reaches : graph.Reaches upper lower) :
    upper ≤ lower := by
  induction reaches with
  | refl => exact Nat.le_refl upper
  | tail _ member ih => exact Nat.le_trans ih (Nat.le_of_lt (linked.forward member).1)

/-- Nothing is above the root. -/
theorem eq_root_of_reaches
    (linked : graph.Linked)
    {upper : NodeId}
    (reaches : graph.Reaches upper root) :
    upper = root :=
  Nat.le_zero.mp (linked.le_of_reaches reaches)

/-- Two nodes that reach each other are one. -/
theorem reaches_antisymm
    (linked : graph.Linked)
    {upper lower : NodeId}
    (down : graph.Reaches upper lower)
    (up : graph.Reaches lower upper) :
    upper = lower :=
  Nat.le_antisymm (linked.le_of_reaches down) (linked.le_of_reaches up)

/-- No child reaches its parent. -/
theorem not_reaches_parent
    (linked : graph.Linked)
    {holder child : NodeId}
    (member : child ∈ graph.children holder) :
    ¬ graph.Reaches child holder := by
  intro up
  exact absurd (linked.le_of_reaches up) (Nat.not_le.mpr (linked.forward member).1)

/-- A node is a child of one parent only. -/
theorem parent_unique
    (linked : graph.Linked)
    {first second child : NodeId}
    (inFirst : child ∈ graph.children first)
    (inSecond : child ∈ graph.children second) :
    first = second :=
  Option.some.inj
    ((linked.parent_of_mem inFirst).symm.trans (linked.parent_of_mem inSecond))

/-- Of two nodes that reach a third, one reaches the other. -/
theorem reaches_comparable
    (linked : graph.Linked)
    {first second lower : NodeId}
    (fromFirst : graph.Reaches first lower)
    (fromSecond : graph.Reaches second lower) :
    graph.Reaches first second ∨ graph.Reaches second first := by
  induction fromFirst with
  | refl => exact .inr fromSecond
  | @tail holder child down member ih =>
      rcases Reaches.tail_iff.mp fromSecond with same | ⟨other, rest, otherMember⟩
      · exact .inl (same ▸ Reaches.trans down (Reaches.child member))
      · have holders := linked.parent_unique member otherMember
        subst holders
        exact ih rest

/-- What is above a reached node is reached. -/
theorem reached_above
    (linked : graph.Linked)
    {upper lower : NodeId}
    (reached : graph.Reaches root lower)
    (reaches : graph.Reaches upper lower) :
    graph.Reaches root upper := by
  rcases linked.reaches_comparable reached reaches with down | up
  · exact down
  · rw [linked.eq_root_of_reaches up]
    exact Reaches.refl _

/-- A strict way down passes through the parent. -/
theorem reaches_parent
    (linked : graph.Linked)
    {upper holder child : NodeId}
    (reaches : graph.Reaches upper child)
    (differ : upper ≠ child)
    (member : child ∈ graph.children holder) :
    graph.Reaches upper holder := by
  rcases Reaches.tail_iff.mp reaches with same | ⟨other, rest, otherMember⟩
  · exact absurd same differ
  · exact linked.parent_unique otherMember member ▸ rest

/-- Siblings that reach a common node are the same. -/
theorem sibling_unique
    (linked : graph.Linked)
    {holder first second lower : NodeId}
    (inFirst : first ∈ graph.children holder)
    (inSecond : second ∈ graph.children holder)
    (fromFirst : graph.Reaches first lower)
    (fromSecond : graph.Reaches second lower) :
    first = second := by
  by_contra differ
  rcases linked.reaches_comparable fromFirst fromSecond with down | down
  · exact linked.not_reaches_parent inFirst (linked.reaches_parent down differ inSecond)
  · exact linked.not_reaches_parent inSecond
      (linked.reaches_parent down (Ne.symm differ) inFirst)

/-- What lies strictly below a node comes after it in the arena. -/
theorem forward_of_reaches
    (linked : graph.Linked)
    {upper lower : NodeId}
    (reaches : graph.Reaches upper lower)
    (differ : upper ≠ lower) :
    upper < lower ∧ lower < graph.size := by
  refine ⟨Nat.lt_of_le_of_ne (linked.le_of_reaches reaches) differ, ?_⟩
  rcases Reaches.tail_iff.mp reaches with same | ⟨holder, _, member⟩
  · exact absurd same differ
  · exact (linked.forward member).2

/-- What the root reaches is in the arena. -/
theorem inside_of_reached
    (linked : graph.Linked)
    {id : NodeId}
    (reached : graph.Reaches root id) :
    id < graph.size := by
  by_cases atRoot : root = id
  · exact atRoot ▸ linked.rooted
  · exact (linked.forward_of_reaches reached atRoot).2

/-- Induction from the leaves up: a node inherits what everything below it has. -/
theorem descendantsFirst
    (linked : graph.Linked)
    {motive : NodeId → Prop}
    (step :
      ∀ id, (∀ lower, graph.Reaches id lower → id ≠ lower → motive lower) → motive id)
    (id : NodeId) :
    motive id := by
  induction distance : graph.size - id using Nat.strongRecOn generalizing id with
  | ind remaining ih =>
      apply step
      intro lower reaches differ
      obtain ⟨after, inside⟩ := linked.forward_of_reaches reaches differ
      have closer : graph.size - lower < remaining :=
        distance ▸ Nat.sub_lt_sub_left (Nat.lt_trans after inside) after
      exact ih (graph.size - lower) closer lower rfl

/-- Induction from the leaves up: a node inherits what all its children have. -/
theorem childrenFirst
    (linked : graph.Linked)
    {motive : NodeId → Prop}
    (step :
      ∀ id, (∀ child ∈ graph.children id, motive child) → motive id)
    (id : NodeId) :
    motive id := by
  induction id using linked.descendantsFirst with
  | step id ih =>
      refine step id fun child member => ?_
      exact ih child (Reaches.child member) (Nat.ne_of_lt (linked.forward member).1)

end Linked

/-- A walk from two stacks is the walk from the first and then the one from the second. -/
theorem walk_append
    (graph : SceneGraph)
    (first second : List NodeId) :
    graph.walk (first ++ second) = graph.walk first ++ graph.walk second := by
  fun_induction walk graph first with
  | case1 => rfl
  | case2 id rest ih =>
      rw [List.cons_append, walk, ← List.append_assoc, ih, List.cons_append]

/-- A walk visits the subtree of each node of the stack in turn. -/
theorem walk_eq_flatMap
    (graph : SceneGraph)
    (stack : List NodeId) :
    graph.walk stack = stack.flatMap graph.traverse := by
  induction stack with
  | nil => simp [walk]
  | cons id rest ih =>
      have split := graph.walk_append [id] rest
      rw [List.flatMap_cons, ← ih]
      exact split

namespace Linked

variable {graph : SceneGraph}

/-- A subtree is its top and then the subtrees of the children, in order. -/
theorem traverse_eq
    (linked : graph.Linked)
    (id : NodeId) :
    graph.traverse id = id :: (graph.children id).flatMap graph.traverse := by
  rw [traverse, walk, List.append_nil, linked.below_val, walk_eq_flatMap]

/-- The traversal from a node visits exactly the nodes that it reaches. -/
theorem mem_traverse
    (linked : graph.Linked)
    {upper lower : NodeId} :
    lower ∈ graph.traverse upper ↔ graph.Reaches upper lower := by
  induction upper using linked.childrenFirst with
  | step upper ih =>
      rw [linked.traverse_eq, Reaches.head_iff]
      simp only [List.mem_cons, List.mem_flatMap]
      constructor
      · rintro (same | ⟨child, member, listed⟩)
        · exact .inl same.symm
        · exact .inr ⟨child, member, (ih child member).mp listed⟩
      · rintro (same | ⟨child, member, reaches⟩)
        · exact .inl same.symm
        · exact .inr ⟨child, member, (ih child member).mpr reaches⟩

/-- The traversal visits no node twice. -/
theorem traverse_nodup
    (linked : graph.Linked)
    (id : NodeId) :
    (graph.traverse id).Nodup := by
  induction id using linked.childrenFirst with
  | step id ih =>
      rw [linked.traverse_eq, List.nodup_cons, List.nodup_flatMap]
      refine ⟨?_, ih, ?_⟩
      · intro listed
        obtain ⟨child, member, again⟩ := List.mem_flatMap.mp listed
        exact linked.not_reaches_parent member (linked.mem_traverse.mp again)
      · refine (linked.distinct id).imp_of_mem ?_
        intro first second inFirst inSecond differ lower fromFirst fromSecond
        exact differ
          (linked.sibling_unique inFirst inSecond
            (linked.mem_traverse.mp fromFirst) (linked.mem_traverse.mp fromSecond))

end Linked

/-- The nodes above `id`, nearest first. -/
def ancestors (graph : SceneGraph) (id : NodeId) : List NodeId :=
  match (graph.node id).parent with
  | some holder => if holder < id then holder :: ancestors graph holder else []
  | none => []
termination_by id

namespace Linked

variable {graph : SceneGraph}

/-- The ancestors of a child are its parent and the parent's ancestors. -/
theorem ancestors_child
    (linked : graph.Linked)
    {holder child : NodeId}
    (member : child ∈ graph.children holder) :
    graph.ancestors child = holder :: graph.ancestors holder := by
  rw [ancestors, linked.parent_of_mem member]
  simp [(linked.forward member).1]

/-- Only the root and nodes cut out of the tree have nothing above them. -/
theorem ancestors_orphan
    {id : NodeId}
    (orphan : (graph.node id).parent = none) :
    graph.ancestors id = [] := by
  rw [ancestors, orphan]

/-- A node without a parent is no child. -/
theorem not_child_of_orphan
    (linked : graph.Linked)
    {holder id : NodeId}
    (orphan : (graph.node id).parent = none) :
    id ∉ graph.children holder := by
  intro member
  have parent := linked.parent_of_mem member
  rw [orphan] at parent
  cases parent

/-- The root has no parent. -/
theorem root_orphan
    (linked : graph.Linked) :
    (graph.node root).parent = none := by
  cases parent : (graph.node root).parent with
  | none => rfl
  | some holder =>
      exact absurd (linked.forward (linked.mem_of_parent parent)).1 (Nat.not_lt_zero holder)

/-- The nodes above a node are the others that reach it. -/
theorem mem_ancestors
    (linked : graph.Linked)
    {upper lower : NodeId} :
    upper ∈ graph.ancestors lower ↔ graph.Reaches upper lower ∧ upper ≠ lower := by
  induction lower using Nat.strongRecOn with
  | ind lower ih =>
      cases parent : (graph.node lower).parent with
      | none =>
          rw [ancestors_orphan parent]
          constructor
          · simp
          · rintro ⟨reaches, differ⟩
            rcases Reaches.tail_iff.mp reaches with same | ⟨holder, _, member⟩
            · exact absurd same differ
            · exact absurd member (linked.not_child_of_orphan parent)
      | some holder =>
          have member := linked.mem_of_parent parent
          rw [linked.ancestors_child member, List.mem_cons,
            ih holder (linked.forward member).1]
          constructor
          · rintro (same | ⟨reaches, _⟩)
            · subst same
              exact ⟨Reaches.child member, Nat.ne_of_lt (linked.forward member).1⟩
            · refine ⟨reaches.trans (Reaches.child member), ?_⟩
              rintro rfl
              exact linked.not_reaches_parent member reaches
          · rintro ⟨reaches, differ⟩
            have up := linked.reaches_parent reaches differ member
            by_cases same : upper = holder
            · exact .inl same
            · exact .inr ⟨up, same⟩

/-- Past the arena nothing is marked. -/
theorem isRemoved_of_outside
    (linked : graph.Linked)
    {id : NodeId}
    (outside : ¬ id < graph.size) :
    graph.isRemoved id = false := by
  rw [← linked.marked] at outside
  rw [isRemoved, Array.getD_eq_getD_getElem?, Array.getElem?_eq_none (Nat.le_of_not_lt outside)]
  rfl

end Linked

/-- Two graphs link the same arena in the same way, and their tables of marks are as long. -/
structure SameLinks (graph other : SceneGraph) : Prop where
  size : other.size = graph.size
  marked : other.removed.size = graph.removed.size
  children : ∀ id, other.children id = graph.children id
  parent : ∀ id, (other.node id).parent = (graph.node id).parent

namespace SameLinks

variable {graph other : SceneGraph}

/-- Graphs with the same links reach the same nodes. -/
theorem reaches_eq
    (same : graph.SameLinks other) :
    other.Reaches = graph.Reaches := by
  unfold Reaches
  congr 1
  funext holder child
  rw [same.children]

/-- A graph with the same links is a tree as well. -/
theorem linked
    (same : graph.SameLinks other)
    (linked : graph.Linked) :
    other.Linked where
  rooted := same.size ▸ linked.rooted
  marked := same.marked.trans (linked.marked.trans same.size.symm)
  forward := by
    intro holder child member
    rw [same.children] at member
    rw [same.size]
    exact linked.forward member
  parent_of_mem := by
    intro holder child member
    rw [same.children] at member
    rw [same.parent]
    exact linked.parent_of_mem member
  mem_of_parent := by
    intro holder child parent
    rw [same.parent] at parent
    rw [same.children]
    exact linked.mem_of_parent parent
  distinct := by
    intro holder
    rw [same.children]
    exact linked.distinct holder

theorem traverse_eq
    (same : graph.SameLinks other)
    (linked : graph.Linked)
    (id : NodeId) :
    other.traverse id = graph.traverse id := by
  induction id using linked.childrenFirst with
  | step id ih =>
      rw [(same.linked linked).traverse_eq, linked.traverse_eq, same.children]
      exact congrArg (List.cons id) (List.flatMap_congr ih)

theorem ancestors_eq
    (same : graph.SameLinks other)
    (id : NodeId) :
    other.ancestors id = graph.ancestors id := by
  induction id using Nat.strongRecOn with
  | ind id ih =>
      rw [ancestors, ancestors, same.parent]
      cases (graph.node id).parent with
      | none => rfl
      | some holder =>
          by_cases before : holder < id
          · simp [before, ih holder before]
          · simp [before]

end SameLinks

end SceneMarkup.Scene.SceneGraph
