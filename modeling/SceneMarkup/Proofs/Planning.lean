import SceneMarkup.Proofs.Redrawn
import SceneMarkup.Proofs.Rewriting

namespace SceneMarkup.Pruning

open Scene Markup

/-!
# The plan of a run and the tree it leads to

A run settles every node that is met from the root without a bone.  The plan it
ends with removes what the final marks remove and moves what they move.

The committed tree can be read off the final state of the run: removed nodes are
gone, survivors stand where the state has them, and the children of a node are
those that it saw, folded ones replaced by what they were folded onto.
-/

section Runs

variable {labels : Labels}

theorem mark_start
    (graph : SceneGraph)
    (id : NodeId) :
    (State.start graph).mark id = {} := by
  simp only [State.mark, State.start, Array.getD_eq_getD_getElem?, Array.getElem?_replicate]
  split <;> rfl

/-- The start of a run is sound. -/
theorem sound_start
    (labels : Labels) :
    Sound labels (fun _ => False) (State.start labels.graph) where
  size := Array.size_replicate
  ordered := by
    refine ⟨List.nodup_nil, fun id => ?_⟩
    rw [State.removal, mark_start]
    simp [State.start]
  node := by
    intro id
    have stays : (State.start labels.graph).removal id = none := by
      rw [State.removal, mark_start]
    refine ⟨by simp [stays], by simp [mark_start], by simp [stays], by simp [stays],
      fun _ => .inl stays, fun contrary => contrary.elim⟩

/-- A node is ready when it is its turn. -/
theorem ready_of_split
    (linked : labels.graph.Linked)
    (state : State)
    {id : NodeId}
    {before after : List NodeId}
    (whole : labels.graph.innermostFirst SceneGraph.root = before ++ id :: after) :
    Ready labels (· ∈ before) state id := by
  obtain ⟨belowBefore, notAbove⟩ := linked.innermostFirst_split whole
  have listed : id ∈ labels.graph.innermostFirst SceneGraph.root := by simp [whole]
  have met := linked.mem_innermostFirst.mp listed
  exact ⟨linked.inside_of_reached met.reaches, met,
    fun upper reaches _ => .inl fun member => notAbove upper member reaches,
    fun member => notAbove id member (SceneGraph.Reaches.refl id),
    fun lower reaches differ boneless => belowBefore lower differ ⟨reaches, boneless⟩⟩

/-- A node that was looked at joins the settled ones. -/
theorem sound_next
    (linked : labels.graph.Linked)
    {state : State}
    {id : NodeId}
    {before : List NodeId}
    (sound : Sound labels (· ∈ before) state)
    (ready : Ready labels (· ∈ before) state id)
    (faultless : (rewrite labels state id).fault = none) :
    Sound labels (· ∈ before ++ [id]) (rewrite labels state id).state := by
  refine ((rewrite_spec linked sound ready).sound faultless).resettle ?_ ?_
  · exact fun node member => .inl (by simpa using member)
  · exact fun node absent => .inl (by simpa using absent)

/-- Looking at the rest of the walk settles all of the walk. -/
theorem rewriteAll_spec
    (linked : labels.graph.Linked)
    {state : State}
    {before rest : List NodeId}
    (whole : labels.graph.innermostFirst SceneGraph.root = before ++ rest)
    (sound : Sound labels (· ∈ before) state) :
    Moves labels state (rewriteAll labels state rest).state ∧
      ((rewriteAll labels state rest).fault = none →
        Sound labels (· ∈ labels.graph.innermostFirst SceneGraph.root)
          (rewriteAll labels state rest).state) := by
  induction rest generalizing before state with
  | nil =>
      rw [List.append_nil] at whole
      exact ⟨Relation.ReflTransGen.refl, fun _ => whole ▸ sound⟩
  | cons id rest ih =>
      have here := rewrite_spec linked sound (ready_of_split linked state whole)
      rw [rewriteAll]
      cases fault : (rewrite labels state id).fault with
      | some reason =>
          refine ⟨here.moves, fun contrary => ?_⟩
          simp [fault] at contrary
      | none =>
          have further :
              labels.graph.innermostFirst SceneGraph.root = (before ++ [id]) ++ rest := by
            rw [whole, List.append_assoc, List.singleton_append]
          obtain ⟨moves, after⟩ :=
            ih further (sound_next linked sound (ready_of_split linked state whole) fault)
          exact ⟨here.moves.trans moves, after⟩

/-- A run is a sequence of moves, and a run without a fault settles all of the walk. -/
theorem run_spec
    (linked : labels.graph.Linked) :
    Moves labels (State.start labels.graph) (run labels).state ∧
      ((run labels).fault = none →
        Sound labels (· ∈ labels.graph.innermostFirst SceneGraph.root) (run labels).state) := by
  have whole :
      labels.graph.innermostFirst SceneGraph.root =
        [] ++ labels.graph.innermostFirst SceneGraph.root := rfl
  have sound : Sound labels (· ∈ []) (State.start labels.graph) :=
    (sound_start labels).resettle (fun _ contrary => by cases contrary) fun _ _ => .inl id
  exact rewriteAll_spec linked whole sound

/-- A plan that is found is read off the state that the run ends with. -/
theorem run_of_plan
    (linked : labels.graph.Linked)
    {decided : Plan}
    (found : (plan labels).result = .ok decided) :
    decided = planOf labels.graph (run labels).state ∧
      Moves labels (State.start labels.graph) (run labels).state ∧
      Sound labels (· ∈ labels.graph.innermostFirst SceneGraph.root) (run labels).state := by
  obtain ⟨moves, after⟩ := run_spec linked
  simp only [plan] at found
  cases fault : (run labels).fault with
  | some reason =>
      rw [fault] at found
      cases found
  | none =>
      rw [fault] at found
      cases found
      exact ⟨rfl, moves, after fault⟩

/-- A plan that is found is read off a sound state that the run moved to. -/
theorem plan_spec
    (linked : labels.graph.Linked)
    {decided : Plan}
    (found : (plan labels).result = .ok decided) :
    ∃ final,
      decided = planOf labels.graph final ∧
        Moves labels (State.start labels.graph) final ∧
        Sound labels (· ∈ labels.graph.innermostFirst SceneGraph.root) final :=
  ⟨(run labels).state, run_of_plan linked found⟩

end Runs

/-- No node is marked as removed that the root reaches, the root excepted. -/
def Tidy (graph : SceneGraph) : Prop :=
  ∀ id, graph.Reaches SceneGraph.root id → id ≠ SceneGraph.root → graph.isRemoved id = false

/-- A scene in which nothing was removed is tidy. -/
theorem tidy_of_untouched
    {graph : SceneGraph}
    (untouched : graph.Untouched) :
    Tidy graph :=
  fun id _ _ => untouched id

/-- What takes the place of a node that is seen: the target of its fold, or the node itself. -/
def State.standIn (state : State) (id : NodeId) : NodeId :=
  if state.removal id = some .transformOverlap then
    match (state.mark id).pushed with
    | some push => push.target
    | none => id
  else id

/-- A node that stays stands for itself. -/
theorem State.standIn_of_stays
    {state : State}
    {id : NodeId}
    (stays : state.removal id = none) :
    state.standIn id = id := by
  rw [standIn, if_neg (by simp [stays])]

/-- A folded node is stood for by the target of its push. -/
theorem State.standIn_of_recorded
    {state : State}
    {id : NodeId}
    {push : Push}
    (folded : state.removal id = some .transformOverlap)
    (recorded : (state.mark id).pushed = some push) :
    state.standIn id = push.target := by
  rw [standIn, if_pos folded, recorded]

/-- A plan moves a node to the transform that it lists for it. -/
theorem Plan.placed_of_mem
    {plan : Plan}
    {id : NodeId}
    {transform : Transform}
    (listed : (id, transform) ∈ plan.transforms)
    (only : ∀ entry ∈ plan.transforms, entry.1 = id → entry.2 = transform)
    (own : Transform) :
    plan.placed id own = transform := by
  unfold Plan.placed
  refine foldl_steps
    (motive := fun done (sofar : Transform) => (id, transform) ∈ done → sofar = transform)
    plan.transforms (fun contrary => by cases contrary) ?_ listed
  intro done entry rest sofar split known member
  by_cases here : entry.1 = id
  · rw [if_pos here]
    exact only entry (by rw [split]; simp) here
  · rw [if_neg here]
    refine known ?_
    rcases List.mem_append.mp member with before | atEnd
    · exact before
    · rw [← List.mem_singleton.mp atEnd] at here
      exact absurd rfl here

section Final

variable {labels : Labels} {settled : NodeId → Prop} {final : State}

/-- The plan removes the nodes that the run ended with as removed. -/
theorem removes_planOf
    (sound : Sound labels settled final)
    (id : NodeId) :
    (planOf labels.graph final).removes id = (final.removal id).isSome := by
  rw [Bool.eq_iff_iff, Plan.removes, List.any_eq_true]
  constructor
  · rintro ⟨entry, listed, same⟩
    obtain ⟨other, _, found⟩ := List.mem_filterMap.mp listed
    obtain ⟨reason, removed, rfl⟩ := Option.map_eq_some_iff.mp found
    rw [← eq_of_beq same, removed]
    rfl
  · intro removed
    obtain ⟨reason, found⟩ := Option.isSome_iff_exists.mp removed
    refine ⟨(id, reason), ?_, beq_self_eq_true id⟩
    exact List.mem_filterMap.mpr ⟨id, (sound.ordered.listed id).mpr removed, by rw [found]; rfl⟩

/-- The plan of a state lists the replacements of survivors that are reached. -/
theorem mem_transforms_planOf
    (linked : labels.graph.Linked)
    {id : NodeId}
    {transform : Transform} :
    (id, transform) ∈ (planOf labels.graph final).transforms ↔
      labels.graph.Reaches SceneGraph.root id ∧ final.removal id = none ∧
        (final.mark id).replacement = some transform := by
  unfold planOf
  simp only [List.mem_filterMap, linked.mem_traverse]
  constructor
  · rintro ⟨other, reached, found⟩
    split at found
    next stays =>
      obtain ⟨replacement, moved, same⟩ := Option.map_eq_some_iff.mp found
      cases same
      exact ⟨reached, Option.isNone_iff_eq_none.mp stays, moved⟩
    next => cases found
  · rintro ⟨reached, stays, moved⟩
    exact ⟨id, reached, by rw [stays, moved]; rfl⟩

/-- A survivor that is reached is moved to where the state has it. -/
theorem placed_planOf
    (linked : labels.graph.Linked)
    {id : NodeId}
    (reached : labels.graph.Reaches SceneGraph.root id)
    (stays : final.removal id = none) :
    (planOf labels.graph final).placed id (labels.graph.node id).transform =
      final.transform labels.graph id := by
  unfold State.transform
  cases moved : (final.mark id).replacement with
  | none =>
      rcases (planOf labels.graph final).placed_eq id (labels.graph.node id).transform with
        kept | listed
      · exact kept
      · have contrary := ((mem_transforms_planOf linked).mp listed).2.2
        rw [moved] at contrary
        cases contrary
  | some transform =>
      refine Plan.placed_of_mem ((mem_transforms_planOf linked).mpr ⟨reached, stays, moved⟩) ?_ _
      rintro ⟨other, listed⟩ member rfl
      have found := ((mem_transforms_planOf linked).mp member).2.2
      rw [moved] at found
      exact (Option.some.inj found).symm

variable (labels final)

/-- The graph with the marks of the plan that a state stands for. -/
def finalMarks : SceneGraph :=
  markPlan labels.graph (planOf labels.graph final)

/-- The tree that the plan of a state leads to. -/
def finalTree : SceneGraph :=
  commit labels.graph (planOf labels.graph final)

variable {labels final}

/-- A survivor has the transform that the run ended with. -/
theorem transform_finalTree
    (linked : labels.graph.Linked)
    {id : NodeId}
    (reached : labels.graph.Reaches SceneGraph.root id)
    (stays : final.removal id = none) :
    ((finalTree labels final).node id).transform = final.transform labels.graph id := by
  rw [finalTree, node_commit_fields linked _ (linked.inside_of_reached reached)]
  exact placed_planOf linked reached stays

/-- In the new tree, removed nodes are those removed before and those that the state removes. -/
theorem isRemoved_finalTree
    (linked : labels.graph.Linked)
    (sound : Sound labels settled final)
    (id : NodeId) :
    (finalTree labels final).isRemoved id =
      (labels.graph.isRemoved id || (final.removal id).isSome) := by
  by_cases inside : id < labels.graph.size
  · rw [finalTree, isRemoved_commit_eq linked _ inside, removes_planOf sound]
  · have outside : ¬ id < (finalTree labels final).size := by
      rwa [finalTree, size_commit]
    have unmarked : final.mark id = default := by
      rw [State.mark, Array.getD_eq_getD_getElem?, Array.getElem?_eq_none]
      · rfl
      · rw [sound.size]
        exact Nat.le_of_not_lt inside
    have newLinked : (finalTree labels final).Linked := linked_commit linked _
    rw [newLinked.isRemoved_of_outside outside, linked.isRemoved_of_outside inside,
      State.removal, unmarked]
    rfl

/-- The marks that are set are those of the run. -/
theorem isRemoved_finalMarks
    (linked : labels.graph.Linked)
    (tidy : Tidy labels.graph)
    (sound : Sound labels settled final)
    {id : NodeId}
    (reached : labels.graph.Reaches SceneGraph.root id)
    (notRoot : id ≠ SceneGraph.root) :
    (finalMarks labels final).isRemoved id = (final.removal id).isSome := by
  have inside := (linked.forward_of_reaches reached (Ne.symm notRoot)).2
  rw [finalMarks, isRemoved_markPlan (linked.marked.symm ▸ inside), tidy id reached notRoot,
    removes_planOf sound, Bool.false_or]

/-- A removed node is not seen through a swept one, as there is nothing left to see. -/
theorem front_of_swept
    (linked : labels.graph.Linked)
    (sound : Sound labels settled final)
    {id : NodeId}
    (swept : final.removal id = some .noContent) :
    final.front labels.graph id = [] := by
  rw [List.eq_nil_iff_forall_not_mem]
  intro lower seen
  obtain ⟨exposes, shows⟩ := (State.mem_front linked).mp seen
  rcases SceneGraph.Reaches.head_iff.mp exposes.reaches with same | ⟨child, member, down⟩
  · exact exposes.differ same
  · have childSwept := (sound.node id).swept swept child member
    by_cases here : child = lower
    · subst here
      simp [State.shows, childSwept] at shows
    · have clears :=
        exposes.between child (SceneGraph.Reaches.child member)
          (Nat.ne_of_lt (linked.forward member).1) down here
      simp [State.clears, childSwept] at clears

/-- Survivors below a node are what the node sees, each folded node replaced by its target. -/
theorem survivors_finalMarks
    (linked : labels.graph.Linked)
    (tidy : Tidy labels.graph)
    (sound : Sound labels settled final)
    {id : NodeId}
    (reached : labels.graph.Reaches SceneGraph.root id) :
    (finalMarks labels final).survivors id =
      (final.front labels.graph id).map final.standIn := by
  have marked := sameLinks_markPlan labels.graph (planOf labels.graph final)
  have markedLinked : (finalMarks labels final).Linked := marked.linked linked
  induction id using linked.childrenFirst with
  | step id ih =>
      have children : (finalMarks labels final).children id = labels.graph.children id :=
        marked.children id
      rw [SceneGraph.survivors, markedLinked.exposed_eq, children, List.filter_flatMap,
        State.front_eq linked, linked.exposed_eq, List.filter_flatMap, List.map_flatMap]
      refine List.flatMap_congr fun child member => ?_
      have childReached := reached.trans (SceneGraph.Reaches.child member)
      have notRoot : child ≠ SceneGraph.root := by
        rintro rfl
        exact absurd (linked.forward member).1 (Nat.not_lt_zero id)
      have removed := isRemoved_finalMarks linked tidy sound childReached notRoot
      have below := ih child member childReached
      rw [SceneGraph.survivors, State.front_eq linked] at below
      cases removal : final.removal child with
      | none =>
          rw [removal] at removed
          simp [SceneGraph.seen, removed, State.clears, State.shows, State.standIn, removal]
      | some reason =>
          rw [removal] at removed
          have atMarks :
              ((finalMarks labels final).seen (finalMarks labels final).isRemoved child).filter
                  (fun lower => !(finalMarks labels final).isRemoved lower) =
                (final.front labels.graph child).map final.standIn := by
            rw [State.front_eq linked, ← below]
            simp [SceneGraph.seen, removed]
          rw [atMarks]
          cases reason with
          | empty =>
              simp [SceneGraph.seen, State.front_eq linked, State.clears, State.shows, removal]
          | doubleNegative =>
              simp [SceneGraph.seen, State.front_eq linked, State.clears, State.shows, removal]
          | transformOverlap =>
              obtain ⟨push, folded⟩ := (sound.node child).folded removal
              have ownStandIn := State.standIn_of_recorded removal folded.recorded
              have targetStandIn := State.standIn_of_stays folded.stays
              rw [folded.front]
              simp [SceneGraph.seen, State.clears, State.shows, removal, ownStandIn,
                targetStandIn]
          | noContent =>
              rw [front_of_swept linked sound removal]
              simp [SceneGraph.seen, State.clears, State.shows, removal]

/-- In the new tree, the children of a node that keeps its place are those that it saw, each
folded node replaced by its target. -/
theorem children_finalTree
    (linked : labels.graph.Linked)
    (tidy : Tidy labels.graph)
    (sound : Sound labels settled final)
    {id : NodeId}
    (reached : labels.graph.Reaches SceneGraph.root id)
    (stays : (finalMarks labels final).stays id = true) :
    (finalTree labels final).children id =
      (final.front labels.graph id).map final.standIn := by
  rw [finalTree, children_commit_of_stays linked _ reached stays]
  exact survivors_finalMarks linked tidy sound reached

end Final

end SceneMarkup.Pruning
