import SceneMarkup.Proofs.Splicing

namespace SceneMarkup.Pruning

open Scene

/-!
# Marks and what is seen through them

Each operation on the state of a run is described by the marks it leaves.  The
children that a parent sees are the exposed nodes that show: nodes that are
empty or cancelled are looked through, and folded ones still show.
-/

namespace State

/-- Whether a parent looks through the node. -/
def clears (state : State) (id : NodeId) : Bool :=
  match state.removal id with
  | some .empty => true
  | some .doubleNegative => true
  | _ => false

/-- Whether a parent sees the node: it stays, or its transform is folded. -/
def shows (state : State) (id : NodeId) : Bool :=
  match state.removal id with
  | none => true
  | some .transformOverlap => true
  | _ => false

/-- The children that a parent sees. -/
def front (state : State) (graph : SceneGraph) (id : NodeId) : List NodeId :=
  (state.effectiveChildren graph id).map (·.val)

/-- The transform that a node stands at when its replacement is forgotten or put back. -/
def placeOf (graph : SceneGraph) (id : NodeId) (replacement : Option Transform) : Transform :=
  replacement.getD (graph.node id).transform

variable {state : State} {id : NodeId}

theorem ne_of_removal
    (state : State)
    {first second : NodeId}
    (differ : state.removal first ≠ state.removal second) :
    first ≠ second := by
  rintro rfl
  exact differ rfl

/-- A parent sees a node that stays. -/
theorem shows_of_none
    (stays : state.removal id = none) :
    state.shows id = true := by
  simp [shows, stays]

/-- What a parent looks through it does not see. -/
theorem not_shows_of_clears
    (clears : state.clears id = true) :
    state.shows id = false := by
  unfold State.clears at clears
  unfold shows
  split at clears <;> simp_all

/-- A parent sees exactly the nodes that stay or are folded. -/
theorem shows_iff :
    state.shows id = true ↔
      state.removal id = none ∨ state.removal id = some .transformOverlap := by
  unfold shows
  split <;> simp_all

/-- What does not show is removed. -/
theorem isSome_of_hidden
    (hidden : state.shows id = false) :
    (state.removal id).isSome = true := by
  rw [← Bool.not_eq_true, shows_iff, not_or] at hidden
  exact Option.isSome_iff_ne_none.mpr hidden.1

/-- What a parent looks through is removed. -/
theorem isSome_of_clears
    (clears : state.clears id = true) :
    (state.removal id).isSome = true :=
  isSome_of_hidden (not_shows_of_clears clears)

/-- A parent looks through exactly the empty wrappers and the cancelled ones. -/
theorem clears_iff :
    state.clears id = true ↔
      state.removal id = some .empty ∨ state.removal id = some .doubleNegative := by
  unfold clears
  split <;> simp_all

theorem map_widen
    {graph : SceneGraph}
    (child : graph.Later id)
    (lower : List (graph.Later child.val)) :
    (lower.map child.widen).map (fun entry : graph.Later id => entry.val) =
      lower.map (fun entry : graph.Later child.val => entry.val) := by
  simp [SceneGraph.Later.widen, Function.comp_def]

/-- A parent sees the exposed nodes that show. -/
theorem front_eq
    {graph : SceneGraph}
    (linked : graph.Linked)
    (state : State)
    (id : NodeId) :
    state.front graph id = (graph.exposed state.clears id).filter state.shows := by
  induction id using linked.childrenFirst with
  | step id ih =>
      rw [front, effectiveChildren, List.map_flatMap, linked.exposed_eq, ← linked.below_val id,
        List.flatMap_map, List.filter_flatMap]
      apply List.flatMap_congr
      intro child member
      have listed : child.val ∈ graph.children id := by
        rw [← linked.below_val id]
        exact List.mem_map.mpr ⟨child, member, rfl⟩
      have inner := ih child.val listed
      unfold front at inner
      cases removal : state.removal child.val with
      | none => simp [SceneGraph.seen, clears, shows, removal]
      | some reason =>
          cases reason <;>
            simp only [SceneGraph.seen, clears, shows, removal, map_widen, inner, if_true,
              List.filter_cons] <;>
            simp

/-- Nodes in front are exposed, and they show. -/
theorem mem_front
    {graph : SceneGraph}
    (linked : graph.Linked)
    {upper lower : NodeId} :
    lower ∈ state.front graph upper ↔
      graph.Exposes state.clears upper lower ∧ state.shows lower = true := by
  rw [front_eq linked, List.mem_filter, linked.mem_exposed]

/-- What a parent sees depends on the reasons below it only. -/
theorem front_congr
    {graph : SceneGraph}
    (linked : graph.Linked)
    {other : State}
    (same :
      ∀ lower, graph.Reaches id lower → id ≠ lower → other.removal lower = state.removal lower) :
    other.front graph id = state.front graph id := by
  rw [front_eq linked, front_eq linked]
  have clear : graph.exposed other.clears id = graph.exposed state.clears id := by
    refine linked.exposed_congr fun lower reaches differ => ?_
    rw [clears, clears, same lower reaches differ]
  rw [clear]
  refine List.filter_congr fun lower listed => ?_
  have exposes := linked.mem_exposed.mp listed
  rw [shows, shows, same lower exposes.reaches exposes.differ]

/-- Where no child is marked, a parent sees its children. -/
theorem front_of_stays
    {graph : SceneGraph}
    (linked : graph.Linked)
    (stays : ∀ child ∈ graph.children id, state.removal child = none) :
    state.front graph id = graph.children id := by
  rw [front_eq linked, linked.exposed_eq, List.filter_flatMap]
  have alone :
      ∀ child ∈ graph.children id,
        (graph.seen state.clears child).filter state.shows = [child] := by
    intro child member
    simp [SceneGraph.seen, clears, shows, stays child member]
  rw [List.flatMap_congr alone]
  simp

section Operations

variable {labels : Labels} {reason : Removal} {other : NodeId}

/-- A change of one mark leaves the other marks as they are. -/
theorem mark_modify
    (inside : id < state.marks.size)
    (change : Mark → Mark)
    (other : NodeId) :
    (state.modify id change).mark other =
      if id = other then change (state.mark other) else state.mark other := by
  simp only [modify, mark, Array.getD_eq_getD_getElem?, Array.getElem?_modify]
  by_cases here : id = other
  · subst here
    simp [inside]
  · simp [here]

@[simp] theorem size_marks_modify
    (change : Mark → Mark) :
    (state.modify id change).marks.size = state.marks.size := by
  simp [modify]

/-- Reports change no mark. -/
@[simp] theorem mark_reports
    (reports : List Report) :
    (reports.foldl State.report state).mark = state.mark := by
  induction reports generalizing state with
  | nil => rfl
  | cons entry rest ih => exact ih

@[simp] theorem size_marks_remove :
    (state.remove labels id reason).marks.size = state.marks.size :=
  size_marks_modify _

/-- Removing a node sets its reason and nothing else. -/
theorem mark_remove
    (inside : id < state.marks.size)
    (labels : Labels)
    (reason : Removal)
    (other : NodeId) :
    (state.remove labels id reason).mark other =
      if id = other then { state.mark other with removal := some reason }
      else state.mark other :=
  @mark_modify (state.report _) id inside _ other

/-- Removing a node gives it the reason; the others keep theirs. -/
theorem removal_remove
    (inside : id < state.marks.size)
    (labels : Labels)
    (reason : Removal)
    (other : NodeId) :
    (state.remove labels id reason).removal other =
      if id = other then some reason else state.removal other := by
  rw [removal, mark_remove inside]
  split <;> rfl

@[simp] theorem size_marks_setTransform
    (transform : Transform) :
    (state.setTransform id transform).marks.size = state.marks.size :=
  size_marks_modify _

/-- Setting a transform changes the replacement of one node and nothing else. -/
theorem mark_setTransform
    (inside : id < state.marks.size)
    (transform : Transform)
    (other : NodeId) :
    (state.setTransform id transform).mark other =
      if id = other then { state.mark other with replacement := some transform }
      else state.mark other :=
  mark_modify inside _ other

/-- Setting a transform removes nothing. -/
theorem removal_setTransform
    (inside : id < state.marks.size)
    (transform : Transform)
    (other : NodeId) :
    (state.setTransform id transform).removal other = state.removal other := by
  rw [removal, mark_setTransform inside]
  split <;> rfl

/-- There is nothing to restore in a node that stays and took part in no push. -/
theorem restore_of_none
    (stays : state.removal id = none)
    (still : (state.mark id).pushed = none) :
    state.restore id = state := by
  have undone : state.undoPush id = state := by
    rw [undoPush, still]
  rw [restore, undone, stays]
  rfl

/-- Restoring a folded node gives it back its place, and its target what stood there before. -/
theorem restore_of_push
    {push : Push}
    (removed : (state.removal id).isSome = true)
    (pushed : (state.mark id).pushed = some push)
    (inside : id < state.marks.size)
    (targetInside : push.target < state.marks.size)
    (apart : push.target ≠ id) :
    (state.restore id).marks.size = state.marks.size ∧
      (state.restore id).order = state.order.filter (fun removed => removed != id) ∧
      ∀ other,
        (state.restore id).mark other =
          if id = other then { state.mark other with removal := none, pushed := none }
          else if push.target = other then
            { state.mark other with replacement := push.previous }
          else state.mark other := by
  have undone :
      state.undoPush id =
        (state.modify id fun mark => { mark with pushed := none }).modify push.target
          fun mark => { mark with replacement := push.previous } := by
    rw [undoPush, pushed]
  have still : ((state.undoPush id).removal id).isSome = true := by
    rw [undone, removal, mark_modify (by simpa using targetInside), if_neg apart,
      mark_modify inside, if_pos rfl]
    exact removed
  rw [restore, if_pos still, undone]
  refine ⟨by simp, rfl, fun other => ?_⟩
  rw [show ∀ (given : State) (order : List NodeId),
      ({ given with order := order } : State).mark = given.mark from fun _ _ => rfl]
  rw [mark_modify (by simpa using inside), mark_modify (by simpa using targetInside),
    mark_modify inside]
  by_cases here : id = other
  · subst here
    simp [apart]
  · simp [here]

/-- Folding writes the transform down, records what stood there, and removes the node. -/
theorem mark_foldInto
    {child : NodeId}
    (labels : Labels)
    (inside : id < state.marks.size)
    (childInside : child < state.marks.size)
    (apart : id ≠ child)
    (other : NodeId) :
    (foldInto labels state id child).mark other =
      if id = other then
        { state.mark other with
          removal := some .transformOverlap
          pushed := some ⟨child, (state.mark child).replacement⟩ }
      else if child = other then
        { state.mark other with replacement := some (state.transform labels.graph id) }
      else state.mark other := by
  unfold foldInto
  rw [mark_remove (by simpa using inside), mark_modify (by simpa using inside),
    mark_setTransform childInside]
  by_cases here : id = other
  · subst here
    simp [Ne.symm apart]
  · simp [here]

/-- Folding removes the outer node, for the overlap of transforms. -/
theorem removal_foldInto
    {child : NodeId}
    (labels : Labels)
    (inside : id < state.marks.size)
    (childInside : child < state.marks.size)
    (apart : id ≠ child)
    (other : NodeId) :
    (foldInto labels state id child).removal other =
      if id = other then some .transformOverlap else state.removal other := by
  rw [removal, mark_foldInto labels inside childInside apart]
  by_cases here : id = other
  · rw [if_pos here, if_pos here]
  · rw [if_neg here, if_neg here]
    split <;> rfl

@[simp] theorem size_marks_foldInto
    {child : NodeId} :
    (foldInto labels state id child).marks.size = state.marks.size := by
  simp [foldInto]

/-- Setting a reason changes the mark of one node. -/
theorem mark_setRemoval
    (inside : id < state.marks.size)
    (reason : Removal)
    (other : NodeId) :
    (state.setRemoval id reason).mark other =
      if id = other then { state.mark other with removal := some reason }
      else state.mark other :=
  mark_modify inside _ other

/-- The order lists every removed node once. -/
structure Ordered (state : State) : Prop where
  nodup : state.order.Nodup
  listed : ∀ id, id ∈ state.order ↔ (state.removal id).isSome = true

/-- Setting a reason keeps the order a list of the removed nodes. -/
theorem Ordered.setRemoval
    (ordered : state.Ordered)
    (inside : id < state.marks.size)
    (reason : Removal) :
    (state.setRemoval id reason).Ordered := by
  have order :
      (state.setRemoval id reason).order =
        if (state.removal id).isNone then state.order ++ [id] else state.order := rfl
  have removal :
      ∀ other,
        (state.setRemoval id reason).removal other =
          if id = other then some reason else state.removal other := by
    intro other
    rw [State.removal, mark_setRemoval inside]
    split <;> rfl
  cases known : state.removal id with
  | none =>
      have absent : id ∉ state.order := by
        rw [ordered.listed, known]
        simp
      simp only [known, Option.isNone_none, if_true] at order
      refine ⟨?_, fun other => ?_⟩
      · rw [order, ← List.concat_eq_append]
        exact ordered.nodup.concat absent
      · rw [order, removal, List.mem_append, ordered.listed]
        by_cases here : id = other
        · simp [here]
        · simp [here, Ne.symm here]
  | some old =>
      simp only [known, Option.isNone_some, Bool.false_eq_true, if_false] at order
      refine ⟨order ▸ ordered.nodup, fun other => ?_⟩
      rw [order, removal, ordered.listed]
      by_cases here : id = other
      · simp [← here, known]
      · simp [here]

/-- A change that keeps all reasons keeps the order. -/
theorem Ordered.modify
    (ordered : state.Ordered)
    (inside : id < state.marks.size)
    {change : Mark → Mark}
    (kept : ∀ mark, (change mark).removal = mark.removal) :
    (state.modify id change).Ordered := by
  refine ⟨ordered.nodup, fun other => ?_⟩
  have same : (state.modify id change).removal other = state.removal other := by
    rw [State.removal, mark_modify inside]
    split
    next => exact kept _
    next => rfl
  rw [same]
  exact ordered.listed other

/-- Removing a node keeps the order a list of the removed nodes. -/
theorem Ordered.remove
    (ordered : state.Ordered)
    (inside : id < state.marks.size)
    (labels : Labels)
    (reason : Removal) :
    (state.remove labels id reason).Ordered :=
  @Ordered.setRemoval (state.report _) id ⟨ordered.nodup, ordered.listed⟩ inside reason

/-- Folding keeps the order a list of the removed nodes. -/
theorem Ordered.foldInto
    (ordered : state.Ordered)
    (labels : Labels)
    (inside : id < state.marks.size)
    {child : NodeId}
    (childInside : child < state.marks.size) :
    (foldInto labels state id child).Ordered := by
  have moved : (state.setTransform child (state.transform labels.graph id)).Ordered :=
    ordered.modify childInside fun _ => rfl
  have recorded :
      ((state.setTransform child (state.transform labels.graph id)).modify id fun mark =>
        { mark with pushed := some ⟨child, (state.mark child).replacement⟩ }).Ordered :=
    moved.modify (by simpa using inside) fun _ => rfl
  exact recorded.remove (by simpa using inside) labels _

/-- Sweeping gives every node of the subtree the same reason and leaves other marks alone. -/
theorem sweepSubtree_spec
    (ordered : state.Ordered)
    (inside : ∀ lower ∈ labels.graph.traverse id, lower < state.marks.size) :
    (sweepSubtree labels state id).marks.size = state.marks.size ∧
      (sweepSubtree labels state id).Ordered ∧
      ∀ other,
        (sweepSubtree labels state id).mark other =
          if other ∈ labels.graph.traverse id then
            { state.mark other with removal := some .noContent }
          else state.mark other := by
  unfold sweepSubtree
  refine foldl_steps
    (motive := fun done (sofar : State) =>
      sofar.marks.size = state.marks.size ∧ sofar.Ordered ∧
        ∀ other,
          sofar.mark other =
            if other ∈ done then { state.mark other with removal := some .noContent }
            else state.mark other)
    (labels.graph.traverse id) ⟨rfl, ordered, by simp⟩ ?_
  rintro done node rest sofar split ⟨size, sofarOrdered, marks⟩
  have nodeInside : node < sofar.marks.size := by
    rw [size]
    exact inside node (by rw [split]; simp)
  have given :
      ∀ other,
        (if node = other then { sofar.mark other with removal := some .noContent }
          else sofar.mark other) =
          if other ∈ done ++ [node] then { state.mark other with removal := some .noContent }
          else state.mark other := by
    intro other
    rw [marks other]
    by_cases here : node = other
    · subst here
      by_cases before : node ∈ done <;> simp [before]
    · simp [here, Ne.symm here]
  by_cases stays : (sofar.removal node).isNone = true
  · rw [if_pos stays]
    refine ⟨size_marks_remove.trans size, sofarOrdered.remove nodeInside labels _, fun other => ?_⟩
    rw [mark_remove nodeInside, given]
  · rw [if_neg stays]
    refine ⟨(size_marks_modify _).trans size, sofarOrdered.setRemoval nodeInside _,
      fun other => ?_⟩
    rw [mark_setRemoval nodeInside, given]

/-- A sweep removes the subtree, for want of content, and nothing else. -/
theorem removal_sweepSubtree
    (ordered : state.Ordered)
    (inside : ∀ lower ∈ labels.graph.traverse id, lower < state.marks.size)
    (other : NodeId) :
    (sweepSubtree labels state id).removal other =
      if other ∈ labels.graph.traverse id then some .noContent else state.removal other := by
  rw [removal, (sweepSubtree_spec ordered inside).2.2]
  split <;> rfl

end Operations

end State

end SceneMarkup.Pruning
