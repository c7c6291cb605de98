import SceneMarkup.Proofs.Growth
import SceneMarkup.Proofs.Splicing

namespace SceneMarkup.Pruning

open Scene

/-!
# What committing a plan does

Any plan may be committed, not only those that a run comes up with.  The tree
that results is the old one without the removed nodes, the root excepted: order
is kept, every survivor hangs below the nearest node above it that keeps its
place, and removed nodes are cut out.  Nothing but links, marks and the planned
transforms changes.
-/

/-- Whether a plan removes a node. -/
def Plan.removes (plan : Plan) (id : NodeId) : Bool :=
  plan.removals.any fun entry => entry.1 == id

/-- The transform that a plan leaves a node with: the last one it lists for the node. -/
def Plan.placed (plan : Plan) (id : NodeId) (own : Transform) : Transform :=
  plan.transforms.foldl (fun sofar entry => if entry.1 = id then entry.2 else sofar) own

/-- A plan only moves nodes that it lists. -/
theorem Plan.placed_eq
    (plan : Plan)
    (id : NodeId)
    (own : Transform) :
    plan.placed id own = own ∨ (id, plan.placed id own) ∈ plan.transforms := by
  unfold Plan.placed
  refine foldl_steps
    (motive := fun done (sofar : Transform) => sofar = own ∨ (id, sofar) ∈ done)
    plan.transforms (.inl rfl) ?_
  rintro done ⟨other, transform⟩ rest sofar split known
  by_cases here : other = id
  · subst here
    simp
  · rcases known with same | listed
    · simp [here, same]
    · simp [here, listed]

/-- Marking nodes as removed leaves the nodes alone. -/
theorem nodes_markRemoved
    (graph : SceneGraph)
    (removals : List (NodeId × Removal)) :
    removals.foldl (fun sofar entry => sofar.markRemoved entry.1) graph =
      { graph with
        removed :=
          (removals.foldl (fun sofar entry => sofar.markRemoved entry.1) graph).removed } := by
  induction removals generalizing graph with
  | nil => rfl
  | cons entry rest ih => exact ih (graph.markRemoved entry.1)

/-- The planned transforms are written into the nodes. -/
theorem sameTables_transforms
    (graph : SceneGraph)
    (transforms : List (NodeId × Transform)) :
    SameTables graph
      (transforms.foldl
        (fun sofar entry => sofar.modify entry.1 fun node => { node with transform := entry.2 })
        graph) :=
  SameTables.foldl (fun sofar entry => (SameTables.refl sofar).modify entry.1 _) transforms

/-- Marking a plan changes nodes and marks only. -/
theorem markPlan_eq
    (graph : SceneGraph)
    (plan : Plan) :
    markPlan graph plan =
      { graph with
        nodes := (markPlan graph plan).nodes
        removed := (markPlan graph plan).removed } := by
  unfold markPlan
  rw [nodes_markRemoved, sameTables_transforms graph plan.transforms]

/-- A commit changes nodes and marks only. -/
theorem commit_eq
    (graph : SceneGraph)
    (plan : Plan) :
    commit graph plan =
      { graph with
        nodes := (commit graph plan).nodes
        removed := (commit graph plan).removed } := by
  rw [commit, sameTables_relink (markPlan graph plan), markPlan_eq]

/-- Links are handed on without a look at the marks that are made. -/
theorem removed_commit
    (graph : SceneGraph)
    (plan : Plan) :
    (commit graph plan).removed = (markPlan graph plan).removed :=
  congrArg (·.removed) (sameTables_relink (markPlan graph plan) SceneGraph.root)

theorem size_markPlan
    (graph : SceneGraph)
    (plan : Plan) :
    (markPlan graph plan).size = graph.size := by
  unfold markPlan
  rw [nodes_markRemoved]
  refine foldl_steps (motive := fun _ (sofar : SceneGraph) => sofar.size = graph.size)
    plan.transforms rfl ?_
  intro done entry rest sofar split size
  exact (SceneGraph.size_modify _ _ _).trans size

/-- Marking keeps the table of marks as long as it is. -/
theorem removed_size_markPlan
    (graph : SceneGraph)
    (plan : Plan) :
    (markPlan graph plan).removed.size = graph.removed.size := by
  unfold markPlan
  refine foldl_steps
    (motive := fun _ (sofar : SceneGraph) => sofar.removed.size = graph.removed.size)
    plan.removals ?_ ?_
  · exact congrArg (·.removed.size) (sameTables_transforms graph plan.transforms)
  · intro done entry rest sofar split size
    exact Array.size_setIfInBounds.trans size

/-- Marking writes the planned transforms into the nodes. -/
theorem node_markPlan
    {graph : SceneGraph}
    {id : NodeId}
    (inside : id < graph.size)
    (plan : Plan) :
    (markPlan graph plan).node id =
      { graph.node id with transform := plan.placed id (graph.node id).transform } := by
  unfold markPlan
  rw [nodes_markRemoved]
  unfold Plan.placed
  refine (foldl_steps
    (motive := fun done (sofar : SceneGraph) =>
      sofar.size = graph.size ∧
        sofar.node id =
          { graph.node id with
            transform :=
              done.foldl (fun sofar entry => if entry.1 = id then entry.2 else sofar)
                (graph.node id).transform })
    plan.transforms ⟨rfl, rfl⟩ ?_).2
  rintro done entry rest sofar split ⟨size, node⟩
  refine ⟨(SceneGraph.size_modify _ _ _).trans size, ?_⟩
  rw [SceneGraph.node_modify, node, size]
  by_cases here : entry.1 = id <;> simp [here, inside]

/-- Marking marks what the plan removes, beside what is marked already. -/
theorem isRemoved_markPlan
    {graph : SceneGraph}
    {id : NodeId}
    (inside : id < graph.removed.size)
    (plan : Plan) :
    (markPlan graph plan).isRemoved id = (graph.isRemoved id || plan.removes id) := by
  unfold markPlan Plan.removes
  refine (foldl_steps
    (motive := fun done (sofar : SceneGraph) =>
      sofar.removed.size = graph.removed.size ∧
        sofar.isRemoved id = (graph.isRemoved id || done.any fun entry => entry.1 == id))
    plan.removals ?_ ?_).2
  · have tables := sameTables_transforms graph plan.transforms
    refine ⟨congrArg (·.removed.size) tables, ?_⟩
    rw [List.any_nil, Bool.or_false]
    exact tables.isRemoved_eq id
  · rintro done entry rest sofar split ⟨size, marks⟩
    refine ⟨Array.size_setIfInBounds.trans size, ?_⟩
    rw [SceneGraph.isRemoved_markRemoved, marks, size, List.any_append]
    by_cases here : entry.1 = id
    · simp [here, inside]
    · have notHere : (entry.1 == id) = false := beq_false_of_ne here
      simp [here, notHere]

theorem sameLinks_markPlan
    (graph : SceneGraph)
    (plan : Plan) :
    graph.SameLinks (markPlan graph plan) := by
  have node :
      ∀ id,
        ((markPlan graph plan).node id).children = (graph.node id).children ∧
          ((markPlan graph plan).node id).parent = (graph.node id).parent := by
    intro id
    by_cases inside : id < graph.size
    · rw [node_markPlan inside]
      exact ⟨rfl, rfl⟩
    · have outside : ¬ id < (markPlan graph plan).size := by
        rwa [size_markPlan]
      rw [SceneGraph.node_eq_default inside, SceneGraph.node_eq_default outside]
      exact ⟨rfl, rfl⟩
  exact ⟨size_markPlan graph plan, removed_size_markPlan graph plan, fun id => (node id).1,
    fun id => (node id).2⟩

section Committed

variable {graph : SceneGraph}

/-- Every node after a commit, in terms of the marked graph. -/
theorem node_commit
    (linked : graph.Linked)
    (plan : Plan)
    (id : NodeId) :
    (commit graph plan).node id =
      relinkedNode (markPlan graph plan) SceneGraph.root id ((markPlan graph plan).node id) :=
  relink_spec ((sameLinks_markPlan graph plan).linked linked)
    ((size_markPlan graph plan).symm ▸ linked.rooted)
    (by simp [SceneGraph.stays])
    ⟨rfl, fun _ _ => rfl, fun _ _ => rfl⟩ id

/-- Relinking changes no mark. -/
theorem isRemoved_commit
    (graph : SceneGraph)
    (plan : Plan)
    (id : NodeId) :
    (commit graph plan).isRemoved id = (markPlan graph plan).isRemoved id :=
  (sameTables_relink (markPlan graph plan) SceneGraph.root).isRemoved_eq id

/-- The same nodes keep their places. -/
theorem stays_commit
    (graph : SceneGraph)
    (plan : Plan) :
    (commit graph plan).stays = (markPlan graph plan).stays := by
  funext id
  unfold SceneGraph.stays
  rw [isRemoved_commit graph plan id]

/-- A reached node that keeps its place adopts what is exposed to it. -/
theorem children_commit_of_stays
    (linked : graph.Linked)
    (plan : Plan)
    {id : NodeId}
    (reached : graph.Reaches SceneGraph.root id)
    (stays : (markPlan graph plan).stays id = true) :
    (commit graph plan).children id = (markPlan graph plan).survivors id := by
  have marked := sameLinks_markPlan graph plan
  have listed : id ∈ (markPlan graph plan).traverse SceneGraph.root := by
    rw [marked.traverse_eq linked]
    exact linked.mem_traverse.mpr reached
  unfold SceneGraph.children
  rw [node_commit linked plan id, relinkedNode]
  by_cases atRoot : id = SceneGraph.root
  · rw [if_pos atRoot]
  · have survives : (markPlan graph plan).isRemoved id = false := by
      simpa [SceneGraph.stays, atRoot] using stays
    rw [if_neg atRoot, if_pos listed, survives]
    rfl

/-- A reached node that loses its place is cut out. -/
theorem detached_commit_of_removed
    (linked : graph.Linked)
    (plan : Plan)
    {id : NodeId}
    (reached : graph.Reaches SceneGraph.root id)
    (gone : (markPlan graph plan).stays id = false) :
    ((commit graph plan).node id).parent = none ∧ (commit graph plan).children id = [] := by
  have marked := sameLinks_markPlan graph plan
  have listed : id ∈ (markPlan graph plan).traverse SceneGraph.root := by
    rw [marked.traverse_eq linked]
    exact linked.mem_traverse.mpr reached
  have split : (markPlan graph plan).isRemoved id = true ∧ id ≠ SceneGraph.root := by
    simpa [SceneGraph.stays] using gone
  unfold SceneGraph.children
  rw [node_commit linked plan id, relinkedNode, if_neg split.2, if_pos listed, if_pos split.1]
  exact ⟨rfl, rfl⟩

/-- A reached survivor belongs to its holder. -/
theorem parent_commit_of_survives
    (linked : graph.Linked)
    (plan : Plan)
    {id : NodeId}
    (reached : graph.Reaches SceneGraph.root id)
    (notRoot : id ≠ SceneGraph.root)
    (survives : (markPlan graph plan).isRemoved id = false) :
    ((commit graph plan).node id).parent = (markPlan graph plan).holder? id := by
  have marked := sameLinks_markPlan graph plan
  have listed : id ∈ (markPlan graph plan).traverse SceneGraph.root := by
    rw [marked.traverse_eq linked]
    exact linked.mem_traverse.mpr reached
  rw [node_commit linked plan id, relinkedNode, if_neg notRoot, if_pos listed, survives]
  rfl

/-- Nodes that the root does not reach keep their links. -/
theorem links_commit_of_unreached
    (linked : graph.Linked)
    (plan : Plan)
    {id : NodeId}
    (unreached : ¬ graph.Reaches SceneGraph.root id) :
    ((commit graph plan).node id).parent = (graph.node id).parent ∧
      (commit graph plan).children id = graph.children id := by
  have marked := sameLinks_markPlan graph plan
  have notListed : id ∉ (markPlan graph plan).traverse SceneGraph.root := by
    rw [marked.traverse_eq linked]
    exact fun listed => unreached (linked.mem_traverse.mp listed)
  have notRoot := (SceneGraph.ne_of_not_reaches unreached).symm
  have kept : (commit graph plan).node id = (markPlan graph plan).node id := by
    rw [node_commit linked plan id, relinkedNode, if_neg notRoot, if_neg notListed]
  unfold SceneGraph.children
  rw [kept]
  exact ⟨marked.parent id, marked.children id⟩

theorem root_orphan_commit
    (linked : graph.Linked)
    (plan : Plan) :
    ((commit graph plan).node SceneGraph.root).parent = none := by
  rw [node_commit linked plan, relinkedNode, if_pos rfl]
  exact ((sameLinks_markPlan graph plan).parent _).trans linked.root_orphan

theorem reached_iff_of_member
    (linked : graph.Linked)
    {holder child : NodeId}
    (member : child ∈ graph.children holder) :
    graph.Reaches SceneGraph.root child ↔ graph.Reaches SceneGraph.root holder := by
  constructor
  · intro reached
    refine linked.reaches_parent reached ?_ member
    rintro rfl
    exact linked.not_child_of_orphan linked.root_orphan member
  · exact fun reached => reached.trans (SceneGraph.Reaches.child member)

theorem size_commit
    (graph : SceneGraph)
    (plan : Plan) :
    (commit graph plan).size = graph.size :=
  (relink _ _).property.trans (size_markPlan graph plan)

/-- A child after a commit was exposed to its parent, or the root does not reach it. -/
theorem mem_children_commit
    (linked : graph.Linked)
    (plan : Plan)
    {holder child : NodeId}
    (member : child ∈ (commit graph plan).children holder) :
    (graph.Reaches SceneGraph.root holder ∧ (markPlan graph plan).stays holder = true ∧
        child ∈ (markPlan graph plan).survivors holder) ∨
      (¬ graph.Reaches SceneGraph.root holder ∧ child ∈ graph.children holder) := by
  by_cases reached : graph.Reaches SceneGraph.root holder
  · cases stays : (markPlan graph plan).stays holder with
    | true =>
        rw [children_commit_of_stays linked plan reached stays] at member
        exact .inl ⟨reached, rfl, member⟩
    | false =>
        rw [(detached_commit_of_removed linked plan reached stays).2] at member
        cases member
  · rw [(links_commit_of_unreached linked plan reached).2] at member
    exact .inr ⟨reached, member⟩

/-- Children after a commit come after their parents. -/
theorem forward_commit
    (linked : graph.Linked)
    (plan : Plan)
    {holder child : NodeId}
    (member : child ∈ (commit graph plan).children holder) :
    holder < child ∧ child < (commit graph plan).size := by
  have markedLinked := (sameLinks_markPlan graph plan).linked linked
  rw [size_commit]
  rcases mem_children_commit linked plan member with ⟨_, _, survivor⟩ | ⟨_, old⟩
  · obtain ⟨exposes, _⟩ := markedLinked.mem_survivors.mp survivor
    rw [← size_markPlan graph plan]
    exact markedLinked.forward_of_reaches exposes.reaches exposes.differ
  · exact linked.forward old

theorem parent_commit_of_member
    (linked : graph.Linked)
    (plan : Plan)
    {holder child : NodeId}
    (member : child ∈ (commit graph plan).children holder) :
    ((commit graph plan).node child).parent = some holder := by
  have marked := sameLinks_markPlan graph plan
  have markedLinked := marked.linked linked
  rcases mem_children_commit linked plan member with ⟨reached, stays, survivor⟩ | ⟨unreached, old⟩
  · obtain ⟨exposes, survives⟩ := markedLinked.mem_survivors.mp survivor
    have below : graph.Reaches holder child := marked.reaches_eq ▸ exposes.reaches
    have notRoot : child ≠ SceneGraph.root := by
      rintro rfl
      exact exposes.differ (linked.eq_root_of_reaches below)
    rw [parent_commit_of_survives linked plan (reached.trans below) notRoot survives]
    exact markedLinked.holder?_of_exposes stays exposes
  · have unreachedChild := mt (reached_iff_of_member linked old).mp unreached
    rw [(links_commit_of_unreached linked plan unreachedChild).1]
    exact linked.parent_of_mem old

theorem member_commit_of_parent
    (linked : graph.Linked)
    (plan : Plan)
    {holder child : NodeId}
    (parent : ((commit graph plan).node child).parent = some holder) :
    child ∈ (commit graph plan).children holder := by
  have marked := sameLinks_markPlan graph plan
  have markedLinked := marked.linked linked
  by_cases reached : graph.Reaches SceneGraph.root child
  · by_cases atRoot : child = SceneGraph.root
    · rw [atRoot, root_orphan_commit linked plan] at parent
      cases parent
    · cases survives : (markPlan graph plan).isRemoved child with
      | true =>
          have gone : (markPlan graph plan).stays child = false := by
            simp [SceneGraph.stays, survives, atRoot]
          rw [(detached_commit_of_removed linked plan reached gone).1] at parent
          cases parent
      | false =>
          rw [parent_commit_of_survives linked plan reached atRoot survives] at parent
          obtain ⟨stays, exposes⟩ := markedLinked.exposes_of_holder? parent
          have below : graph.Reaches holder child := marked.reaches_eq ▸ exposes.reaches
          rw [children_commit_of_stays linked plan (linked.reached_above reached below) stays]
          exact markedLinked.mem_survivors.mpr ⟨exposes, survives⟩
  · rw [(links_commit_of_unreached linked plan reached).1] at parent
    have old := linked.mem_of_parent parent
    have holderUnreached := mt (reached_iff_of_member linked old).mpr reached
    rw [(links_commit_of_unreached linked plan holderUnreached).2]
    exact old

theorem children_commit_nodup
    (linked : graph.Linked)
    (plan : Plan)
    (holder : NodeId) :
    ((commit graph plan).children holder).Nodup := by
  by_cases reached : graph.Reaches SceneGraph.root holder
  · cases stays : (markPlan graph plan).stays holder with
    | true =>
        rw [children_commit_of_stays linked plan reached stays]
        exact ((sameLinks_markPlan graph plan).linked linked).survivors_nodup holder
    | false =>
        rw [(detached_commit_of_removed linked plan reached stays).2]
        exact List.nodup_nil
  · rw [(links_commit_of_unreached linked plan reached).2]
    exact linked.distinct holder

/-- Committing any plan keeps the tree a tree. -/
theorem linked_commit
    (linked : graph.Linked)
    (plan : Plan) :
    (commit graph plan).Linked where
  rooted := (size_commit graph plan).symm ▸ linked.rooted
  marked := by
    rw [removed_commit, removed_size_markPlan, size_commit]
    exact linked.marked
  forward := forward_commit linked plan
  parent_of_mem := parent_commit_of_member linked plan
  mem_of_parent := member_commit_of_parent linked plan
  distinct := children_commit_nodup linked plan

/-- Below a reached node that keeps its place, the new tree lists the survivors of the old one. -/
theorem traverse_commit_of_stays
    (linked : graph.Linked)
    (plan : Plan)
    {id : NodeId}
    (reached : graph.Reaches SceneGraph.root id)
    (stays : (markPlan graph plan).stays id = true) :
    (commit graph plan).traverse id = id :: (markPlan graph plan).keptBelow id := by
  have marked := sameLinks_markPlan graph plan
  have markedLinked := marked.linked linked
  induction id using markedLinked.descendantsFirst with
  | step id ih =>
      have atSurvivor :
          ∀ survivor ∈ (markPlan graph plan).survivors id,
            (commit graph plan).traverse survivor =
              survivor :: (markPlan graph plan).keptBelow survivor := by
        intro survivor member
        obtain ⟨exposes, survives⟩ := markedLinked.mem_survivors.mp member
        have below : graph.Reaches id survivor := marked.reaches_eq ▸ exposes.reaches
        exact ih survivor exposes.reaches exposes.differ (reached.trans below)
          (by simp [SceneGraph.stays, survives])
      rw [(linked_commit linked plan).traverse_eq,
        children_commit_of_stays linked plan reached stays, List.flatMap_congr atSurvivor,
        markedLinked.flatMap_survivors]

/-- A reached node that keeps its place still reaches the survivors that it reached. -/
theorem reaches_commit_iff
    (linked : graph.Linked)
    (plan : Plan)
    {upper lower : NodeId}
    (reached : graph.Reaches SceneGraph.root upper)
    (stays : (markPlan graph plan).stays upper = true) :
    (commit graph plan).Reaches upper lower ↔
      upper = lower ∨
        graph.Reaches upper lower ∧ (markPlan graph plan).isRemoved lower = false := by
  have marked := sameLinks_markPlan graph plan
  have markedLinked := marked.linked linked
  rw [← (linked_commit linked plan).mem_traverse,
    traverse_commit_of_stays linked plan reached stays, List.mem_cons, markedLinked.mem_keptBelow, marked.reaches_eq]
  constructor
  · rintro (same | ⟨reaches, _, survives⟩)
    · exact .inl same.symm
    · exact .inr ⟨reaches, survives⟩
  · rintro (same | ⟨reaches, survives⟩)
    · exact .inl same.symm
    · by_cases here : upper = lower
      · exact .inl here.symm
      · exact .inr ⟨reaches, here, survives⟩

/-- The new tree is traversed like the old one, without the removed nodes other than the root. -/
theorem traverse_commit
    (linked : graph.Linked)
    (plan : Plan) :
    (commit graph plan).traverse SceneGraph.root =
      (graph.traverse SceneGraph.root).filter (commit graph plan).stays := by
  have marked := sameLinks_markPlan graph plan
  have markedLinked := marked.linked linked
  have rootStays : (markPlan graph plan).stays SceneGraph.root = true := by
    simp [SceneGraph.stays]
  have belowRoot :
      ∀ lower ∈ ((markPlan graph plan).children SceneGraph.root).flatMap
          (markPlan graph plan).traverse,
        (!(markPlan graph plan).isRemoved lower) = (markPlan graph plan).stays lower := by
    intro lower listed
    obtain ⟨child, member, below⟩ := List.mem_flatMap.mp listed
    have notRoot : lower ≠ SceneGraph.root := by
      rintro rfl
      exact markedLinked.not_reaches_parent member (markedLinked.mem_traverse.mp below)
    simp [SceneGraph.stays, notRoot]
  rw [traverse_commit_of_stays linked plan (SceneGraph.Reaches.refl _) rootStays,
    stays_commit graph plan, ← marked.traverse_eq linked, markedLinked.traverse_eq,
    List.filter_cons_of_pos rootStays, SceneGraph.keptBelow, List.filter_congr belowRoot]

/-- The marks after a commit are the old ones and those of the plan. -/
theorem isRemoved_commit_eq
    (linked : graph.Linked)
    (plan : Plan)
    {id : NodeId}
    (inside : id < graph.size) :
    (commit graph plan).isRemoved id = (graph.isRemoved id || plan.removes id) := by
  rw [isRemoved_commit graph plan, isRemoved_markPlan (linked.marked.symm ▸ inside)]

/-- Of a node, a commit changes links and transform only. -/
theorem node_commit_fields
    (linked : graph.Linked)
    (plan : Plan)
    {id : NodeId}
    (inside : id < graph.size) :
    (commit graph plan).node id =
      { graph.node id with
        transform := plan.placed id (graph.node id).transform
        parent := ((commit graph plan).node id).parent
        children := ((commit graph plan).node id).children } := by
  rw [node_commit linked plan id, node_markPlan inside]
  unfold relinkedNode
  split
  next => rfl
  next =>
    split
    next => split <;> rfl
    next => rfl

end Committed

/--
A commit of any plan over nodes of the arena splices the tree: traversal keeps
the old order without the removed nodes other than the root, each survivor hangs
below the nearest old ancestor that keeps its place, parent links and child
lists agree, removed nodes are cut out, and of a node nothing else changes but
its planned transform.
-/
theorem commit_splices
    {graph : SceneGraph}
    {plan : Plan}
    (linked : graph.Linked)
    (removalsInside : ∀ entry ∈ plan.removals, entry.1 < graph.size) :
    let result := commit graph plan
    let reached := graph.Reaches SceneGraph.root
    (∀ id, result.isRemoved id = (graph.isRemoved id || plan.removes id)) ∧
      result.traverse SceneGraph.root =
        (graph.traverse SceneGraph.root).filter
          (fun id => !result.isRemoved id || id == SceneGraph.root) ∧
      (result.traverse SceneGraph.root).Nodup ∧
      (∀ id, reached id → id ≠ SceneGraph.root → result.isRemoved id = false →
        (result.node id).parent =
          (graph.ancestors id).find?
            (fun upper => !result.isRemoved upper || upper == SceneGraph.root)) ∧
      (∀ holder child,
        child ∈ result.children holder ↔ (result.node child).parent = some holder) ∧
      (∀ id, reached id → id ≠ SceneGraph.root → result.isRemoved id = true →
        (result.node id).parent = none ∧ result.children id = []) ∧
      (∀ id, ∃ transform,
        result.node id =
            { graph.node id with
              transform := transform
              parent := (result.node id).parent
              children := (result.node id).children } ∧
          (transform = (graph.node id).transform ∨ (id, transform) ∈ plan.transforms)) ∧
      result.removed.size = result.size ∧
      result = { graph with nodes := result.nodes, removed := result.removed } := by
  intro result reached
  have marked := sameLinks_markPlan graph plan
  have resultLinked : result.Linked := linked_commit linked plan
  have stays :
      (fun id => !result.isRemoved id || id == SceneGraph.root) = result.stays := rfl
  rw [stays]
  refine ⟨?_, traverse_commit linked plan, resultLinked.traverse_nodup _, ?_, ?_, ?_, ?_,
    resultLinked.marked, commit_eq graph plan⟩
  · intro id
    by_cases inside : id < graph.size
    · exact isRemoved_commit_eq linked plan inside
    · have notRemoved : plan.removes id = false := by
        rw [Plan.removes, List.any_eq_false]
        intro entry member same
        exact inside (eq_of_beq same ▸ removalsInside entry member)
      have outside : ¬ id < result.size := by
        rwa [size_commit]
      rw [notRemoved, linked.isRemoved_of_outside inside, resultLinked.isRemoved_of_outside outside]
      rfl
  · intro id below notRoot survives
    rw [parent_commit_of_survives linked plan below notRoot
        (isRemoved_commit graph plan id ▸ survives),
      SceneGraph.holder?, marked.ancestors_eq, stays_commit graph plan]
  · exact fun holder child => ⟨resultLinked.parent_of_mem, resultLinked.mem_of_parent⟩
  · intro id below notRoot removed
    have gone : result.stays id = false := by
      simp [SceneGraph.stays, notRoot, removed]
    rw [stays_commit graph plan] at gone
    exact detached_commit_of_removed linked plan below gone
  · intro id
    by_cases inside : id < graph.size
    · exact ⟨_, node_commit_fields linked plan inside, plan.placed_eq id _⟩
    · have outside : ¬ id < result.size := by
        rwa [size_commit]
      refine ⟨(graph.node id).transform, ?_, .inl rfl⟩
      rw [SceneGraph.node_eq_default inside, SceneGraph.node_eq_default outside]

/-- Groups 1 to 4 below each other, with meshes 5 to 7 beside the inner ones. -/
def nestedGroups : SceneGraph :=
  (((((((SceneGraph.ofRoot "Scene").add 0 { name := "A" }).add 1 { name := "B" }).add 2
    { name := "C" }).add 3 { name := "D" }).add 2 { name := "E", kind := .mesh }).add 4
    { name := "F", kind := .mesh }).add 1 { name := "G", kind := .mesh }

theorem linked_nestedGroups : nestedGroups.Linked :=
  (((((((SceneGraph.linked_ofRoot "Scene").add (by decide) _).add (by decide) _).add (by decide)
    _).add (by decide) _).add (by decide) _).add (by decide) _).add (by decide) _

/-- Removing the root and every second group leaves the others in their order, and the mesh in the
innermost group finds its holder two levels up. -/
theorem commit_splices_nestedGroups :
    let plan : Plan :=
      ⟨[(4, .empty), (0, .empty), (2, .noContent)], [(6, .identity)]⟩
    nestedGroups.Linked ∧
      (∀ entry ∈ plan.removals, entry.1 < nestedGroups.size) ∧
      (commit nestedGroups plan).traverse SceneGraph.root = [0, 1, 3, 6, 5, 7] ∧
      ((commit nestedGroups plan).node 6).parent = some 3 := by
  intro plan
  have inside : ∀ entry ∈ plan.removals, entry.1 < nestedGroups.size := by decide
  obtain ⟨marks, traversal, _, parents, _⟩ := commit_splices linked_nestedGroups inside
  refine ⟨linked_nestedGroups, inside, ?_, ?_⟩
  · rw [traversal]
    simp only [marks]
    decide +kernel
  · rw [parents 6 (linked_nestedGroups.mem_traverse.mp (by decide +kernel)) (by decide)
      (by rw [marks]; decide +kernel)]
    simp only [marks]
    decide +kernel

end SceneMarkup.Pruning
