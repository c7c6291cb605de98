import SceneMarkup.Proofs.Exposure
import SceneMarkup.Pruning.Plan

namespace SceneMarkup.Pruning

open Scene

/-!
# Splicing in place

Relinking rewrites child lists and parent links while it walks over them.
Below a node that has not been reached yet the graph still looks as it did when
the marks were set, so the new links can be said in terms of the marked graph:
a survivor adopts the survivors exposed to it and belongs to its holder.
-/

/-- A fold keeps what its steps keep; a step knows the items before and after its own. -/
theorem foldl_steps
    {motive : List α → β → Prop}
    {step : β → α → β}
    {start : β}
    (whole : List α)
    (first : motive [] start)
    (next :
      ∀ done item rest sofar,
        whole = done ++ item :: rest →
        motive done sofar → motive (done ++ [item]) (step sofar item)) :
    motive whole (whole.foldl step start) := by
  have run :
      ∀ (rest done : List α) (sofar : β),
        whole = done ++ rest → motive done sofar →
        motive whole (rest.foldl step sofar) := by
    intro rest
    induction rest with
    | nil =>
        intro done sofar split holds
        rw [List.append_nil] at split
        exact split ▸ holds
    | cons item rest ih =>
        intro done sofar split holds
        refine ih (done ++ [item]) (step sofar item) ?_
          (next done item rest sofar split holds)
        rw [split, List.append_assoc, List.singleton_append]
  exact run whole [] start rfl first

/-- The graphs differ in their nodes only. -/
def SameTables (graph other : SceneGraph) : Prop :=
  other = { graph with nodes := other.nodes }

namespace SameTables

variable {graph other last : SceneGraph}

theorem refl
    (graph : SceneGraph) :
    SameTables graph graph :=
  rfl

theorem trans
    (first : SameTables graph other)
    (second : SameTables other last) :
    SameTables graph last := by
  unfold SameTables at first second ⊢
  rw [second, first]

/-- Marks are not told by nodes. -/
theorem isRemoved_eq
    (same : SameTables graph other)
    (id : NodeId) :
    other.isRemoved id = graph.isRemoved id := by
  rw [same]
  rfl

/-- Changing a node leaves the tables of geometries and materials alone. -/
theorem modify
    (kept : SameTables graph other)
    (id : NodeId)
    (change : Node → Node) :
    SameTables graph (other.modify id change) :=
  kept.trans rfl

/-- Steps that leave the tables alone do so in any number. -/
theorem foldl
    {step : SceneGraph → α → SceneGraph}
    (kept : ∀ sofar item, SameTables sofar (step sofar item))
    (items : List α) :
    SameTables graph (items.foldl step graph) := by
  induction items generalizing graph with
  | nil => exact refl graph
  | cons item rest ih => exact (kept graph item).trans ih

end SameTables

/-- Setting children leaves the tables alone. -/
theorem sameTables_setChildren
    (graph : SceneGraph)
    (id : NodeId)
    (children : List NodeId) :
    SameTables graph (setChildren graph id children) :=
  (SameTables.foldl (fun sofar child => (SameTables.refl sofar).modify child _) children).modify
    id _

/-- Cutting nodes out leaves the tables alone. -/
theorem sameTables_splice
    (graph : SceneGraph)
    (id : NodeId) :
    SameTables graph (splice graph id).1.val := by
  induction distance : graph.size - id using Nat.strongRecOn generalizing graph id with
  | ind remaining ih =>
      rw [splice]
      refine foldl_steps
        (motive := fun _ (sofar : Rewiring graph × List (graph.Later id)) =>
          SameTables graph sofar.1.val)
        (graph.below id) (SameTables.refl graph) ?_
      intro done child rest sofar split kept
      by_cases removed : sofar.1.val.isRemoved child.val
      · have closer : sofar.1.val.size - child.val < remaining := by
          rw [sofar.1.property, ← distance]
          exact child.closer
        have inner := ih _ closer sofar.1.val child.val rfl
        simp only [removed, if_true]
        exact (kept.trans inner).modify child.val _
      · simp only [removed]
        exact kept

/-- Linking survivors anew leaves the tables alone. -/
theorem sameTables_relink
    (graph : SceneGraph)
    (id : NodeId) :
    SameTables graph (relink graph id).val := by
  induction distance : graph.size - id using Nat.strongRecOn generalizing graph id with
  | ind remaining ih =>
      rw [relink]
      refine foldl_steps
        (motive := fun _ (sofar : Rewiring graph) => SameTables graph sofar.val)
        (splice graph id).2 ?_ ?_
      · exact (sameTables_splice graph id).trans (sameTables_setChildren _ _ _)
      · intro done child rest sofar split kept
        have closer : sofar.val.size - child.val < remaining := by
          rw [sofar.property, ← distance]
          exact child.closer
        exact kept.trans (ih _ closer sofar.val child.val rfl)

/-- Detaching a node takes its links and leaves the other nodes alone. -/
theorem node_detach
    (graph : SceneGraph)
    (id other : NodeId) :
    (detach graph id).node other =
      if id = other then (graph.node other).detached else graph.node other := by
  rw [detach, SceneGraph.node_modify]
  by_cases inside : other < graph.size
  · simp [inside]
  · simp only [inside, and_false, if_false, SceneGraph.node_eq_default inside]
    split <;> rfl

/-- Setting children changes the holder and the children set, and no other node. -/
theorem node_setChildren
    {graph : SceneGraph}
    {id : NodeId}
    {children : List NodeId}
    (inside : id < graph.size)
    (childrenInside : ∀ child ∈ children, child < graph.size)
    (apart : id ∉ children)
    (other : NodeId) :
    (setChildren graph id children).node other =
      if id = other then { graph.node other with children := children }
      else if other ∈ children then { graph.node other with parent := some id }
      else graph.node other := by
  have told :
      let adopted := children.foldl (fun graph child => setParent graph id child) graph
      adopted.size = graph.size ∧
        adopted.node other =
          if other ∈ children then { graph.node other with parent := some id }
          else graph.node other := by
    refine foldl_steps
      (motive := fun done (sofar : SceneGraph) =>
        sofar.size = graph.size ∧
          sofar.node other =
            if other ∈ done then { graph.node other with parent := some id }
            else graph.node other)
      children ⟨rfl, by simp⟩ ?_
    rintro done child rest sofar split ⟨size, node⟩
    have childInside : child < graph.size :=
      childrenInside child (by rw [split]; simp)
    refine ⟨(SceneGraph.size_modify _ _ _).trans size, ?_⟩
    rw [setParent, SceneGraph.node_modify, node, size]
    by_cases here : child = other
    · subst here
      by_cases before : child ∈ done <;> simp [before, childInside]
    · simp [here, Ne.symm here]
  obtain ⟨size, node⟩ := told
  rw [setChildren, SceneGraph.node_modify, node, size]
  by_cases here : id = other
  · subst here
    simp [inside, apart]
  · simp [here]

/-- The graph has the links and marks of another one at and below a node. -/
structure AgreesBelow (marked graph : SceneGraph) (id : NodeId) : Prop where
  size : graph.size = marked.size
  children : ∀ lower, marked.Reaches id lower → graph.children lower = marked.children lower
  marks : ∀ lower, marked.Reaches id lower → graph.isRemoved lower = marked.isRemoved lower

namespace AgreesBelow

variable {marked graph other : SceneGraph} {id : NodeId}

/-- Agreement is inherited by what is below. -/
theorem descend
    (agrees : AgreesBelow marked graph id)
    {lower : NodeId}
    (reaches : marked.Reaches id lower) :
    AgreesBelow marked graph lower where
  size := agrees.size
  children := fun further down => agrees.children further (reaches.trans down)
  marks := fun further down => agrees.marks further (reaches.trans down)

/-- Agreement survives changes elsewhere, and changes of parent links anywhere. -/
theorem transport
    (agrees : AgreesBelow marked graph id)
    (size : other.size = graph.size)
    (links :
      ∀ lower, marked.Reaches id lower →
        (other.node lower).children = (graph.node lower).children ∧
          other.isRemoved lower = graph.isRemoved lower) :
    AgreesBelow marked other id where
  size := size.trans agrees.size
  children := fun lower reaches =>
    (links lower reaches).1.trans (agrees.children lower reaches)
  marks := fun lower reaches =>
    (links lower reaches).2.trans (agrees.marks lower reaches)

/-- Where a graph agrees with a tree below a node, the node has the children that it has there. -/
theorem below_val
    (agrees : AgreesBelow marked graph id)
    (linked : marked.Linked) :
    (graph.below id).map (·.val) = marked.children id := by
  have same := agrees.children id (SceneGraph.Reaches.refl id)
  rw [SceneGraph.below_val_of_forward, same]
  intro child member
  rw [same] at member
  rw [agrees.size]
  exact linked.forward member

end AgreesBelow

/-- What is left of the node `id` when the removed nodes of a list are cut out. -/
def leftOf (marked : SceneGraph) (cut : List NodeId) (id : NodeId) (node : Node) : Node :=
  if id ∈ cut ∧ marked.isRemoved id = true then node.detached else node

/-- What is not listed is left as it is. -/
theorem leftOf_of_not_mem
    {marked : SceneGraph}
    {cut : List NodeId}
    {id : NodeId}
    (absent : id ∉ cut)
    (node : Node) :
    leftOf marked cut id node = node :=
  if_neg fun listed => absent listed.1

/-- A survivor is left as it is. -/
theorem leftOf_of_survivor
    {marked : SceneGraph}
    {id : NodeId}
    (survives : marked.isRemoved id = false)
    (cut : List NodeId)
    (node : Node) :
    leftOf marked cut id node = node :=
  if_neg fun listed => by simp [survives] at listed

/-- Cutting two lists is cutting one after the other. -/
theorem leftOf_append
    (marked : SceneGraph)
    (first second : List NodeId)
    (id : NodeId)
    (node : Node) :
    leftOf marked (first ++ second) id node =
      leftOf marked second id (leftOf marked first id node) := by
  unfold leftOf
  by_cases removed : marked.isRemoved id = true
  · by_cases inFirst : id ∈ first <;> by_cases inSecond : id ∈ second <;>
      simp [removed, inFirst, inSecond, Node.detached]
  · simp [removed]

/-- The node at the front of a list can be cut out last. -/
theorem leftOf_cons
    {marked : SceneGraph}
    {front : NodeId}
    (removed : marked.isRemoved front = true)
    (cut : List NodeId)
    (id : NodeId)
    (node : Node) :
    leftOf marked (front :: cut) id node =
      if front = id then (leftOf marked cut id node).detached
      else leftOf marked cut id node := by
  unfold leftOf
  by_cases here : front = id
  · subst here
    by_cases again : front ∈ cut <;> simp [removed, again, Node.detached]
  · simp [here, Ne.symm here]

/-- What is seen through the siblings before a child is not below this child. -/
theorem not_mem_seen_before
    {marked : SceneGraph}
    {id child lower : NodeId}
    {before rest : List NodeId}
    (linked : marked.Linked)
    (whole : marked.children id = before ++ child :: rest)
    (reaches : marked.Reaches child lower) :
    lower ∉ before.flatMap (marked.seen marked.isRemoved) := by
  intro touched
  obtain ⟨sibling, earlier, seen⟩ := List.mem_flatMap.mp touched
  have siblingListed : sibling ∈ marked.children id := by
    rw [whole]
    exact List.mem_append_left _ earlier
  have listed : child ∈ marked.children id := by
    simp [whole]
  have same := linked.sibling_unique siblingListed listed (linked.reaches_of_seen seen) reaches
  have distinct := linked.distinct id
  rw [whole] at distinct
  exact List.disjoint_of_nodup_append distinct (same ▸ earlier) (by simp)

/-- Splicing collects the survivors exposed to a node and cuts out the removed nodes exposed to it,
though the graph changes while it is walked over. -/
theorem splice_spec
    {marked graph : SceneGraph}
    {id : NodeId}
    (linked : marked.Linked)
    (agrees : AgreesBelow marked graph id) :
    (splice graph id).2.map (·.val) = marked.survivors id ∧
      ∀ other,
        (splice graph id).1.val.node other =
          leftOf marked (marked.exposed marked.isRemoved id) other (graph.node other) := by
  induction id using linked.childrenFirst generalizing graph with
  | step id ih =>
      have ids := agrees.below_val linked
      unfold SceneGraph.survivors
      rw [splice, linked.exposed_eq, ← ids]
      refine (foldl_steps
        (motive := fun done (sofar : Rewiring graph × List (graph.Later id)) =>
          SameTables graph sofar.1.val ∧
            sofar.2.map (·.val) =
              ((done.map (·.val)).flatMap (marked.seen marked.isRemoved)).filter
                (fun lower => !marked.isRemoved lower) ∧
            ∀ other,
              sofar.1.val.node other =
                leftOf marked ((done.map (·.val)).flatMap (marked.seen marked.isRemoved)) other
                  (graph.node other))
        (graph.below id) ?_ ?_).2
      · exact ⟨SameTables.refl graph, rfl, fun other => (leftOf_of_not_mem (by simp) _).symm⟩
      rintro done child rest sofar split ⟨tables, found, nodes⟩
      have whole : marked.children id = done.map (·.val) ++ child.val :: rest.map (·.val) := by
        rw [← ids, split, List.map_append, List.map_cons]
      have listed : child.val ∈ marked.children id := by
        simp [whole]
      -- Splicing at the siblings before did not touch the subtree of this child.
      have untouched :
          ∀ lower, marked.Reaches child.val lower →
            sofar.1.val.node lower = graph.node lower := by
        intro lower reaches
        rw [nodes lower, leftOf_of_not_mem (not_mem_seen_before linked whole reaches)]
      have agreesHere : AgreesBelow marked sofar.1.val child.val :=
        (agrees.descend (SceneGraph.Reaches.child listed)).transport sofar.1.property
          fun lower reaches =>
            ⟨congrArg (·.children) (untouched lower reaches), tables.isRemoved_eq lower⟩
      rw [agreesHere.marks child.val (SceneGraph.Reaches.refl child.val)]
      simp only [List.map_append, List.map_cons, List.map_nil, List.flatMap_append,
        List.flatMap_cons, List.flatMap_nil, List.append_nil, List.filter_append, leftOf_append]
      cases removed : marked.isRemoved child.val with
      | false =>
          have seen : marked.seen marked.isRemoved child.val = [child.val] := by
            simp [SceneGraph.seen, removed]
          refine ⟨tables, ?_, fun other => ?_⟩
          · simp [found, seen, removed]
          · rw [if_neg (by simp), nodes other, seen]
            by_cases here : other = child.val
            · rw [here, leftOf_of_survivor removed [child.val]]
            · have apartHere : other ∉ [child.val] := by simp [here]
              rw [leftOf_of_not_mem apartHere]
      | true =>
          obtain ⟨innerFound, innerNodes⟩ := ih child.val listed agreesHere
          have seen :
              marked.seen marked.isRemoved child.val =
                child.val :: marked.exposed marked.isRemoved child.val := by
            simp [SceneGraph.seen, removed]
          refine ⟨(tables.trans (sameTables_splice _ _)).modify child.val _, ?_, fun other => ?_⟩
          · have widened :
                ((splice sofar.1.val child.val).2.map (sofar.1.widen child)).map (·.val) =
                  (splice sofar.1.val child.val).2.map (·.val) := by
              simp [Rewiring.widen, Function.comp_def]
            rw [if_pos rfl, List.map_append, found, widened, innerFound]
            simp [seen, removed, SceneGraph.survivors]
          · rw [if_pos rfl, node_detach, innerNodes other, nodes other, seen,
              leftOf_cons removed]

/-- What relinking below `top` makes of the node `id`: removed nodes lose their links, survivors
adopt what is exposed to them and belong to their holder. -/
def relinkedNode (marked : SceneGraph) (top id : NodeId) (node : Node) : Node :=
  if id = top then { node with children := marked.survivors id }
  else if id ∈ marked.traverse top then
    if marked.isRemoved id then node.detached
    else { node with parent := marked.holder? id, children := marked.survivors id }
  else node

/-- The graph after splicing at `id`, whose survivors have been handed over to `id`. -/
def adopted (graph : SceneGraph) (id : NodeId) : SceneGraph :=
  setChildren (splice graph id).1.val id ((splice graph id).2.map (·.val))

/-- Handing over survivors settles the node itself, their parent links and the removed nodes
exposed to it. -/
theorem node_adopted
    {marked graph : SceneGraph}
    {id : NodeId}
    (linked : marked.Linked)
    (inside : id < marked.size)
    (agrees : AgreesBelow marked graph id)
    (other : NodeId) :
    (adopted graph id).node other =
      if id = other then { graph.node other with children := marked.survivors id }
      else if other ∈ marked.survivors id then { graph.node other with parent := some id }
      else leftOf marked (marked.exposed marked.isRemoved id) other (graph.node other) := by
  obtain ⟨found, nodes⟩ := splice_spec linked agrees
  have size : (splice graph id).1.val.size = marked.size :=
    (splice graph id).1.property.trans agrees.size
  have survivorsInside :
      ∀ survivor ∈ marked.survivors id, survivor < (splice graph id).1.val.size := by
    intro survivor member
    obtain ⟨exposes, _⟩ := linked.mem_survivors.mp member
    rw [size]
    exact (linked.forward_of_reaches exposes.reaches exposes.differ).2
  have notExposed : id ∉ marked.exposed marked.isRemoved id :=
    fun member => (linked.mem_exposed.mp member).differ rfl
  have apart : id ∉ marked.survivors id :=
    fun member => notExposed (List.mem_filter.mp member).1
  rw [adopted, found, node_setChildren (size ▸ inside) survivorsInside apart, nodes other]
  by_cases here : id = other
  · subst here
    rw [leftOf_of_not_mem notExposed]
  · by_cases member : other ∈ marked.survivors id
    · rw [leftOf_of_survivor (linked.mem_survivors.mp member).2]
    · simp [here, member]

/-- Strictly below a survivor, handing over has changed nothing yet. -/
theorem node_adopted_below
    {marked graph : SceneGraph}
    {id survivor lower : NodeId}
    (linked : marked.Linked)
    (inside : id < marked.size)
    (agrees : AgreesBelow marked graph id)
    (member : survivor ∈ marked.survivors id)
    (reaches : marked.Reaches survivor lower)
    (differ : survivor ≠ lower) :
    (adopted graph id).node lower = graph.node lower := by
  obtain ⟨exposes, survives⟩ := linked.mem_survivors.mp member
  have notTop : id ≠ lower := by
    rintro rfl
    exact exposes.differ (linked.reaches_antisymm exposes.reaches reaches)
  have notSurvivor : lower ∉ marked.survivors id := by
    intro again
    exact differ (linked.survivor_unique member again reaches (SceneGraph.Reaches.refl lower))
  have notExposed : lower ∉ marked.exposed marked.isRemoved id := by
    intro again
    exact differ
      (SceneGraph.Linked.eq_of_exposes (linked.mem_exposed.mp again) exposes.reaches
        exposes.differ reaches survives)
  rw [node_adopted linked inside agrees, if_neg notTop, if_neg notSurvivor,
    leftOf_of_not_mem notExposed]

/-- A survivor that was handed over has got its new parent. -/
theorem node_adopted_survivor
    {marked graph : SceneGraph}
    {id survivor : NodeId}
    (linked : marked.Linked)
    (inside : id < marked.size)
    (agrees : AgreesBelow marked graph id)
    (member : survivor ∈ marked.survivors id) :
    (adopted graph id).node survivor =
      { graph.node survivor with parent := some id } := by
  have differ := (linked.mem_survivors.mp member).1.differ
  rw [node_adopted linked inside agrees, if_neg differ, if_pos member]

/-- Relinking has gone over the subtrees of the nodes done. -/
def RelinkedOver
    (marked graph : SceneGraph)
    (id : NodeId)
    (done : List (graph.Later id))
    (sofar : Rewiring graph) :
    Prop :=
  ∀ other,
    sofar.val.node other =
      if other ∈ (done.map (·.val)).flatMap marked.traverse then
        relinkedNode marked id other (graph.node other)
      else (adopted graph id).node other

/-- Once the subtrees of all survivors are relinked, so is everything below. -/
theorem RelinkedOver.finish
    {marked graph : SceneGraph}
    {id : NodeId}
    {sofar : Rewiring graph}
    (linked : marked.Linked)
    (inside : id < marked.size)
    (agrees : AgreesBelow marked graph id)
    (covered : RelinkedOver marked graph id (splice graph id).2 sofar)
    (other : NodeId) :
    sofar.val.node other = relinkedNode marked id other (graph.node other) := by
  have node := covered other
  rw [(splice_spec linked agrees).1] at node
  rw [node]
  split
  next => rfl
  next outside =>
    have notBelowSurvivor :
        ∀ survivor ∈ marked.survivors id, ¬ marked.Reaches survivor other :=
      fun survivor member reaches =>
        outside (List.mem_flatMap.mpr ⟨survivor, member, linked.mem_traverse.mpr reaches⟩)
    have notSurvivor : other ∉ marked.survivors id :=
      fun member => notBelowSurvivor other member (SceneGraph.Reaches.refl other)
    rw [node_adopted linked inside agrees, if_neg notSurvivor, relinkedNode]
    by_cases here : id = other
    · simp [here]
    · rw [if_neg here, if_neg (Ne.symm here)]
      by_cases below : marked.Reaches id other
      · rcases linked.reaches_cases below here with
          ⟨exposes, removed⟩ | ⟨survivor, member, reaches⟩
        · have listed := linked.mem_exposed.mpr exposes
          simp [leftOf, linked.mem_traverse.mpr below, listed, removed]
        · exact absurd reaches (notBelowSurvivor survivor member)
      · have notListed : other ∉ marked.traverse id :=
          fun listed => below (linked.mem_traverse.mp listed)
        have notExposed : other ∉ marked.exposed marked.isRemoved id :=
          fun listed => below (linked.mem_exposed.mp listed).reaches
        rw [if_neg notListed, leftOf_of_not_mem notExposed]

/-- Relinking below a survivor that was handed over gives each node there its final links. -/
theorem relinkedNode_survivor
    {marked graph : SceneGraph}
    {id survivor lower : NodeId}
    (linked : marked.Linked)
    (inside : id < marked.size)
    (idStays : marked.stays id = true)
    (agrees : AgreesBelow marked graph id)
    (member : survivor ∈ marked.survivors id)
    (reaches : marked.Reaches survivor lower) :
    relinkedNode marked survivor lower ((adopted graph id).node lower) =
      relinkedNode marked id lower (graph.node lower) := by
  obtain ⟨exposes, survives⟩ := linked.mem_survivors.mp member
  have below := exposes.reaches.trans reaches
  have notTop : lower ≠ id := by
    rintro rfl
    exact exposes.differ (linked.reaches_antisymm exposes.reaches reaches)
  have listed := linked.mem_traverse.mpr below
  by_cases here : survivor = lower
  · subst here
    have holder := linked.holder?_of_exposes idStays exposes
    rw [node_adopted_survivor linked inside agrees member]
    simp [relinkedNode, notTop, listed, survives, holder]
  · have listedHere := linked.mem_traverse.mpr reaches
    rw [node_adopted_below linked inside agrees member reaches here]
    simp [relinkedNode, notTop, listed, listedHere, Ne.symm here]

/-- The nodes at and below the survivors before another one are not below that one. -/
theorem not_mem_traverses_before
    {marked : SceneGraph}
    {id survivor lower : NodeId}
    {before rest : List NodeId}
    (linked : marked.Linked)
    (whole : marked.survivors id = before ++ survivor :: rest)
    (reaches : marked.Reaches survivor lower) :
    lower ∉ before.flatMap marked.traverse := by
  intro touched
  obtain ⟨other, earlier, listed⟩ := List.mem_flatMap.mp touched
  have otherMember : other ∈ marked.survivors id := by
    rw [whole]
    exact List.mem_append_left _ earlier
  have member : survivor ∈ marked.survivors id := by
    simp [whole]
  have same := linked.survivor_unique otherMember member (linked.mem_traverse.mp listed) reaches
  have distinct := linked.survivors_nodup id
  rw [whole] at distinct
  exact List.disjoint_of_nodup_append distinct (same ▸ earlier) (by simp)

/-- Relinking gives every node below its links by the marks alone. -/
theorem relink_spec
    {marked graph : SceneGraph}
    {id : NodeId}
    (linked : marked.Linked)
    (inside : id < marked.size)
    (idStays : marked.stays id = true)
    (agrees : AgreesBelow marked graph id)
    (other : NodeId) :
    (relink graph id).val.node other =
      relinkedNode marked id other (graph.node other) := by
  induction id using linked.descendantsFirst generalizing graph other with
  | step id ih =>
      obtain ⟨found, _⟩ := splice_spec linked agrees
      rw [relink]
      refine RelinkedOver.finish linked inside agrees
        (foldl_steps
          (motive := fun done sofar =>
            SameTables graph sofar.val ∧ RelinkedOver marked graph id done sofar)
          (splice graph id).2 ?_ ?_).2 other
      · refine ⟨(sameTables_splice graph id).trans (sameTables_setChildren _ _ _), ?_⟩
        intro other
        simp [adopted]
      · rintro done entry rest sofar split ⟨tables, covered⟩
        have whole :
            marked.survivors id = done.map (·.val) ++ entry.val :: rest.map (·.val) := by
          rw [← found, split, List.map_append, List.map_cons]
        have member : entry.val ∈ marked.survivors id := by
          simp [whole]
        obtain ⟨exposes, survives⟩ := linked.mem_survivors.mp member
        -- Subtrees of survivors are apart, so this one is still as it was handed over.
        have untouched :
            ∀ lower, marked.Reaches entry.val lower →
              sofar.val.node lower = (adopted graph id).node lower := by
          intro lower reaches
          rw [covered lower, if_neg (not_mem_traverses_before linked whole reaches)]
        have agreesHere : AgreesBelow marked sofar.val entry.val := by
          refine (agrees.descend exposes.reaches).transport sofar.property ?_
          intro lower reaches
          refine ⟨?_, tables.isRemoved_eq lower⟩
          rw [untouched lower reaches]
          by_cases here : entry.val = lower
          · rw [← here, node_adopted_survivor linked inside agrees member]
          · rw [node_adopted_below linked inside agrees member reaches here]
        have entryInside : entry.val < marked.size :=
          (linked.forward_of_reaches exposes.reaches exposes.differ).2
        have entryStays : marked.stays entry.val = true := by
          simp [SceneGraph.stays, survives]
        refine ⟨tables.trans (sameTables_relink _ _), fun other => ?_⟩
        rw [ih entry.val exposes.reaches exposes.differ entryInside entryStays agreesHere]
        simp only [List.map_append, List.map_cons, List.map_nil, List.flatMap_append,
          List.flatMap_cons, List.flatMap_nil, List.append_nil, List.mem_append]
        by_cases below : marked.Reaches entry.val other
        · rw [if_pos (.inr (linked.mem_traverse.mpr below)), untouched other below,
            relinkedNode_survivor linked inside idStays agrees member below]
        · have notListed : other ∉ marked.traverse entry.val :=
            fun listed => below (linked.mem_traverse.mp listed)
          have notHere := (SceneGraph.ne_of_not_reaches below).symm
          rw [relinkedNode, if_neg notHere, if_neg notListed, covered other]
          simp only [notListed, or_false]

end SceneMarkup.Pruning
