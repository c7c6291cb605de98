import SceneMarkup.Proofs.Soundness

namespace SceneMarkup.Pruning

open Scene Markup

/-!
# Decisions keep states sound

Each way to change marks keeps a state sound as long as the node that it is
about is open.  A decision is a few such changes; the node it was made about is
settled afterwards, and a child that it moved is to be looked at again.
-/

section Changes

variable {labels : Labels} {settled : NodeId → Prop} {state other : State} {id : NodeId}

theorem isDisposable_iff :
    isDisposable labels id = true ↔
      labels.options.keepGroups = false ∧ (labels.graph.node id).kind.isGroup = true ∧
        labels.isRelevant id = false := by
  simp [isDisposable, and_assoc]

/-- Relevant are the nodes that clips drive and those that blend shapes. -/
theorem isRelevant_eq_false_iff
    {graph : SceneGraph}
    {index : InstanceIndex}
    {options : Options} :
    (Labels.ofGraph graph index options).isRelevant id = false ↔
      (∀ clip ∈ graph.clips, id ∉ clip.targets) ∧ (graph.node id).morphTargets = none := by
  simp [Labels.isRelevant, Labels.isTarget, Labels.ofGraph, SceneGraph.targets]

theorem isEligible_iff :
    isEligible labels state id = true ↔
      isDisposable labels id = true ∧ labels.graph.isRemoved id = false ∧
        state.removal id = none := by
  simp [isEligible, and_assoc]

theorem isBone_eq_false_iff
    {kind : NodeKind} :
    kind.isBone = false ↔ kind ≠ .bone := by
  cases kind <;> simp [NodeKind.isBone]

theorem not_bone_of_group
    {kind : NodeKind}
    (group : kind.isGroup = true) :
    kind.isBone = false := by
  cases kind <;> simp [NodeKind.isGroup, NodeKind.isBone] at group ⊢

/-- A step at an open node has to be checked in the subtree of the node only. -/
theorem Sound.step
    (linked : labels.graph.Linked)
    (sound : Sound labels settled state)
    (isOpen : Open labels settled state id)
    {settledAfter : NodeId → Prop}
    (size : other.marks.size = state.marks.size)
    (ordered : other.Ordered)
    (same : ∀ lower, ¬ labels.graph.Reaches id lower → other.mark lower = state.mark lower)
    (alike : ∀ lower, ¬ labels.graph.Reaches id lower → (settledAfter lower ↔ settled lower))
    (below : ∀ node, labels.graph.Reaches id node → SoundAt labels settledAfter other node) :
    Sound labels settledAfter other where
  size := size.trans sound.size
  ordered := ordered
  node := by
    intro node
    by_cases reaches : labels.graph.Reaches id node
    · exact below node reaches
    · exact sound.outside linked isOpen same alike reaches

theorem ne_of_below
    {graph : SceneGraph}
    (linked : graph.Linked)
    {upper middle lower : NodeId}
    (toMiddle : graph.Reaches upper middle)
    (differ : upper ≠ middle)
    (toLower : graph.Reaches middle lower) :
    lower ≠ upper := by
  rintro rfl
  exact differ (linked.reaches_antisymm toMiddle toLower)

/-- Below a node whose mark alone changes, everything stays sound. -/
theorem Sound.below
    (linked : labels.graph.Linked)
    (sound : Sound labels settled state)
    {settledAfter : NodeId → Prop}
    (same : ∀ lower, lower ≠ id → other.mark lower = state.mark lower)
    (alike : ∀ lower, lower ≠ id → (settledAfter lower ↔ settled lower))
    {node : NodeId}
    (reaches : labels.graph.Reaches id node)
    (differ : id ≠ node) :
    SoundAt labels settledAfter other node :=
  (sound.node node).congr linked
    (fun lower further => same lower (ne_of_below linked reaches differ further))
    (alike node (Ne.symm differ))

/-- Below a node, everything stays sound when the replacement changes of an exposed node that
stays, provided that this one is no bare group that may go. -/
theorem Sound.retarget
    (linked : labels.graph.Linked)
    (sound : Sound labels settled state)
    {settledAfter : NodeId → Prop}
    {target : NodeId}
    {replacement : Option Transform}
    (exposes : labels.graph.Exposes state.clears id target)
    (stays : state.removal target = none)
    (laden : isEligible labels state target = true → isBare labels target = false)
    (same : ∀ lower, lower ≠ id → lower ≠ target → other.mark lower = state.mark lower)
    (atTarget : other.mark target = { state.mark target with replacement := replacement })
    (alike : ∀ lower, lower ≠ id → (settledAfter lower ↔ settled lower))
    {node : NodeId}
    (reaches : labels.graph.Reaches id node)
    (differ : id ≠ node) :
    SoundAt labels settledAfter other node := by
  have apart :
      ∀ lower, labels.graph.Reaches node lower → lower ≠ id :=
    fun lower further => ne_of_below linked reaches differ further
  have known := sound.node node
  by_cases here : node = target
  · subst here
    have removal : other.removal node = state.removal node := by
      rw [State.removal, State.removal, atTarget]
    have staysAfter := removal.trans stays
    have front : other.front labels.graph node = state.front labels.graph node := by
      refine State.front_congr linked fun lower further deeper => ?_
      exact removal_of_mark (same lower (apart lower further) (Ne.symm deeper))
    refine ⟨by simp [staysAfter], ?_, by simp [staysAfter], by simp [staysAfter],
      fun _ => .inl staysAfter, ?_⟩
    · simp [atTarget, known.still_of_stays stays]
    · intro isSettled eligible
      rw [isEligible_of_removal removal] at eligible
      have steady := known.steady ((alike node (Ne.symm differ)).mp isSettled) eligible
      refine steady.transfer front fun bare => ?_
      rw [laden eligible] at bare
      cases bare
  · by_cases isAbove : labels.graph.Reaches node target
    · have clears := exposes.between node reaches differ isAbove here
      have own := same node (Ne.symm differ) here
      refine SoundAt.of_clears (clears_of_removal (removal_of_mark own) ▸ clears)
        (known.disposable (State.isSome_of_clears clears)) ?_
      rw [own]
      exact known.still_of_clears clears
    · refine known.congr linked (fun lower further => ?_) (alike node (Ne.symm differ))
      refine same lower (apart lower further) ?_
      rintro rfl
      exact isAbove further

/-- An open node that stays may give way to what is below it. -/
theorem Sound.remove
    (linked : labels.graph.Linked)
    (sound : Sound labels settled state)
    (isOpen : Open labels settled state id)
    (inside : id < labels.graph.size)
    (stays : state.removal id = none)
    (disposable : isDisposable labels id = true)
    {reason : Removal}
    (clearing : reason = .empty ∨ reason = .doubleNegative) :
    Sound labels settled (state.remove labels id reason) := by
  have insideMarks : id < state.marks.size := sound.marked inside
  have marks := State.mark_remove insideMarks labels reason
  have same :
      ∀ lower, lower ≠ id → (state.remove labels id reason).mark lower = state.mark lower := by
    intro lower differ
    rw [marks, if_neg (Ne.symm differ)]
  refine sound.step linked isOpen State.size_marks_remove
    (sound.ordered.remove insideMarks labels reason) ?_ (fun _ _ => Iff.rfl) ?_
  · intro lower apart
    exact same lower (SceneGraph.ne_of_not_reaches apart).symm
  · intro node reaches
    by_cases here : id = node
    · subst here
      have own : (state.remove labels id reason).mark id =
          { state.mark id with removal := some reason } := by
        rw [marks, if_pos rfl]
      have clears : (state.remove labels id reason).clears id = true := by
        rw [State.clears_iff, State.removal, own]
        rcases clearing with rfl | rfl <;> simp
      refine SoundAt.of_clears clears disposable ?_
      rw [own]
      exact (sound.node id).still_of_stays stays
    · exact sound.below linked same (fun _ _ => Iff.rfl) reaches here

/-- An open node that stays and is unsettled may be moved. -/
theorem Sound.setTransform
    (linked : labels.graph.Linked)
    (sound : Sound labels settled state)
    (isOpen : Open labels settled state id)
    (inside : id < labels.graph.size)
    (stays : state.removal id = none)
    (unsettled : ¬ settled id)
    (transform : Transform) :
    Sound labels settled (state.setTransform id transform) := by
  have insideMarks : id < state.marks.size := sound.marked inside
  have marks := State.mark_setTransform insideMarks transform
  have same :
      ∀ lower, lower ≠ id → (state.setTransform id transform).mark lower = state.mark lower := by
    intro lower differ
    rw [marks, if_neg (Ne.symm differ)]
  have own : (state.setTransform id transform).mark id =
      { state.mark id with replacement := some transform } := by
    rw [marks, if_pos rfl]
  have staysAfter : (state.setTransform id transform).removal id = none := by
    rw [State.removal, own]
    exact stays
  refine sound.step linked isOpen (State.size_marks_setTransform _)
    (sound.ordered.modify insideMarks fun _ => rfl) ?_ (fun _ _ => Iff.rfl) ?_
  · intro lower apart
    exact same lower (SceneGraph.ne_of_not_reaches apart).symm
  · intro node reaches
    by_cases here : id = node
    · subst here
      refine ⟨by simp [staysAfter], ?_, by simp [staysAfter], by simp [staysAfter],
        fun _ => .inl staysAfter, fun isSettled => absurd isSettled unsettled⟩
      simp [own, (sound.node id).still_of_stays stays]
    · exact sound.below linked same (fun _ _ => Iff.rfl) reaches here

theorem FoldedOnto.exposes
    (linked : labels.graph.Linked)
    {push : Push}
    (folded : FoldedOnto labels state id push) :
    labels.graph.Exposes state.clears id push.target := by
  have seen : push.target ∈ state.front labels.graph id := by simp [folded.front]
  exact ((State.mem_front linked).mp seen).1

/-- Marks after a restoration: the node stays, and the target of a fold has its old place. -/
theorem mark_restore
    (linked : labels.graph.Linked)
    (sound : Sound labels settled state)
    (inside : id < labels.graph.size)
    {push : Push}
    (removed : state.removal id = some .transformOverlap)
    (folded : FoldedOnto labels state id push) :
    (state.restore id).marks.size = state.marks.size ∧
      (state.restore id).order = state.order.filter (fun removed => removed != id) ∧
      ∀ other,
        (state.restore id).mark other =
          if id = other then { state.mark other with removal := none, pushed := none }
          else if push.target = other then
            { state.mark other with replacement := push.previous }
          else state.mark other := by
  have exposes := folded.exposes linked
  have targetInside := (linked.forward_of_reaches exposes.reaches exposes.differ).2
  exact State.restore_of_push (by simp [removed]) folded.recorded (sound.marked inside)
    (sound.marked targetInside) (Ne.symm exposes.differ)

/-- Restoring an open node that shows keeps everything sound, but the node is not settled. -/
theorem Sound.restore
    (linked : labels.graph.Linked)
    (sound : Sound labels settled state)
    (isOpen : Open labels settled state id)
    (inside : id < labels.graph.size)
    (shows : state.shows id = true) :
    Sound labels (fun node => settled node ∧ node ≠ id) (state.restore id) := by
  have known := sound.node id
  rcases State.shows_iff.mp shows with stays | removed
  · rw [State.restore_of_none stays (known.still_of_stays stays)]
    refine sound.resettle (fun node isSettled => .inl isSettled.1) fun node unsettled => ?_
    by_cases here : node = id
    · exact .inr (.inl (here ▸ stays))
    · exact .inl fun isSettled => unsettled ⟨isSettled, here⟩
  · obtain ⟨push, folded⟩ := known.folded removed
    obtain ⟨size, order, marks⟩ := mark_restore linked sound inside removed folded
    have exposes := folded.exposes linked
    have alike : ∀ lower, lower ≠ id → (settled lower ∧ lower ≠ id ↔ settled lower) :=
      fun lower differ => and_iff_left differ
    have own : (state.restore id).mark id =
        { state.mark id with removal := none, pushed := none } := by
      rw [marks, if_pos rfl]
    have removal :
        ∀ other,
          (state.restore id).removal other = if id = other then none else state.removal other := by
      intro other
      rw [State.removal, marks]
      split
      next => rfl
      next => split <;> rfl
    refine sound.step linked isOpen size ?_ ?_ ?_ ?_
    · refine ⟨order ▸ sound.ordered.nodup.filter _, fun other => ?_⟩
      rw [order, removal, List.mem_filter, sound.ordered.listed]
      by_cases here : id = other
      · simp [here]
      · simp [here, Ne.symm here]
    · intro lower apart
      rw [marks, if_neg (SceneGraph.ne_of_not_reaches apart),
        if_neg (exposes.reaches.ne_of_not_reaches apart)]
    · intro lower apart
      exact alike lower (SceneGraph.ne_of_not_reaches apart).symm
    · intro node reaches
      by_cases here : id = node
      · subst here
        have stays : (state.restore id).removal id = none := by
          rw [removal, if_pos rfl]
        refine ⟨by simp [stays], by simp [own], by simp [stays], by simp [stays],
          fun _ => .inl stays, fun isSettled => absurd rfl isSettled.2⟩
      · have atTarget : (state.restore id).mark push.target =
            { state.mark push.target with replacement := push.previous } := by
          rw [marks, if_neg exposes.differ, if_pos rfl]
        refine sound.retarget linked exposes folded.stays ?_ ?_ atTarget alike reaches here
        · intro eligible
          obtain ⟨disposable, present, _⟩ := isEligible_iff.mp eligible
          exact folded.laden present disposable
        · intro lower notSelf notTarget
          rw [marks, if_neg (Ne.symm notSelf), if_neg (Ne.symm notTarget)]

/-- The child that a group is folded onto stays. -/
theorem Folds.child_stays
    {child : NodeId}
    (folds : Folds labels state id child)
    (sound : Sound labels settled state)
    (shows : state.shows child = true) :
    state.removal child = none := by
  rcases State.shows_iff.mp shows with stays | folded
  · exact stays
  · -- A folded child would print the transform that it folded.
    obtain ⟨push, onto⟩ := (sound.node child).folded folded
    exact absurd folds.resting onto.moving

/-- A fold keeps everything sound and settles its node. -/
theorem Sound.fold
    (linked : labels.graph.Linked)
    (sound : Sound labels settled state)
    (isOpen : Open labels settled state id)
    (inside : id < labels.graph.size)
    (eligible : isEligible labels state id = true)
    {child : NodeId}
    (alone : state.front labels.graph id = [child])
    (folds : Folds labels state id child)
    (childSettled : isEligible labels state child = true → settled child) :
    Sound labels (fun node => settled node ∨ node = id) (foldInto labels state id child) := by
  obtain ⟨disposable, _, stays⟩ := isEligible_iff.mp eligible
  have seen : child ∈ state.front labels.graph id := by simp [alone]
  obtain ⟨exposes, shows⟩ := (State.mem_front linked).mp seen
  have childInside := (linked.forward_of_reaches exposes.reaches exposes.differ).2
  have insideMarks : id < state.marks.size := sound.marked inside
  have childInsideMarks : child < state.marks.size := sound.marked childInside
  have marks := State.mark_foldInto labels insideMarks childInsideMarks exposes.differ
  have own : (foldInto labels state id child).mark id =
      { state.mark id with
        removal := some .transformOverlap
        pushed := some ⟨child, (state.mark child).replacement⟩ } := by
    rw [marks, if_pos rfl]
  have atChild : (foldInto labels state id child).mark child =
      { state.mark child with replacement := some (state.transform labels.graph id) } := by
    rw [marks, if_neg exposes.differ, if_pos rfl]
  have childStays := folds.child_stays sound shows
  have laden : isEligible labels state child = true → isBare labels child = false := by
    intro childEligible
    have steady := (sound.node child).steady (childSettled childEligible) childEligible
    rw [← Bool.not_eq_true]
    exact fun bare => steady.prints bare folds.resting
  have alike : ∀ lower, lower ≠ id → (settled lower ∨ lower = id ↔ settled lower) :=
    fun lower differ => or_iff_left differ
  refine sound.step linked isOpen State.size_marks_foldInto
    (sound.ordered.foldInto labels insideMarks childInsideMarks) ?_ ?_ ?_
  · intro lower apart
    rw [marks, if_neg (SceneGraph.ne_of_not_reaches apart),
      if_neg (exposes.reaches.ne_of_not_reaches apart)]
  · intro lower apart
    exact alike lower (SceneGraph.ne_of_not_reaches apart).symm
  · intro node reaches
    by_cases here : id = node
    · subst here
      have removed : (foldInto labels state id child).removal id = some .transformOverlap := by
        rw [State.removal, own]
      have placed :
          (foldInto labels state id child).transform labels.graph id =
            state.transform labels.graph id :=
        transform_of_replacement (by rw [own])
      have front :
          (foldInto labels state id child).front labels.graph id =
            state.front labels.graph id := by
        refine State.front_congr linked fun lower _ deeper => ?_
        rw [State.removal, marks, if_neg deeper, State.removal]
        split <;> rfl
      refine ⟨fun _ => disposable, fun _ _ => .inl removed, fun _ => ?_, by simp [removed],
        fun unsettled => absurd (.inr rfl) unsettled, fun _ contrary => ?_⟩
      · refine ⟨⟨child, (state.mark child).replacement⟩, by rw [own], front.trans alone, ?_, ?_,
          folds.bare, placed ▸ folds.moving, folds.resting, folds.expressible, folds.notBone,
          folds.notRelevant, ?_⟩
        · rw [State.removal, atChild]
          exact childStays
        · rw [atChild, placed]
        · exact fun present childDisposable =>
            laden (isEligible_iff.mpr ⟨childDisposable, present, childStays⟩)
      · rw [isEligible_iff, removed] at contrary
        cases contrary.2.2
    · refine sound.retarget linked exposes childStays laden ?_ atChild alike reaches here
      intro lower notSelf notChild
      rw [marks, if_neg (Ne.symm notSelf), if_neg (Ne.symm notChild)]

/-- Without content below, everything in the subtree is a group that may go. -/
theorem disposable_of_no_content
    (linked : labels.graph.Linked)
    (disposable : isDisposable labels id = true)
    (nothing : hasContent labels id = false)
    {lower : NodeId}
    (reaches : labels.graph.Reaches id lower) :
    isDisposable labels lower = true := by
  rw [hasContent, List.any_eq_false] at nothing
  have here := nothing lower (linked.mem_traverse.mpr reaches)
  simp only [Bool.or_eq_true, not_or, Bool.not_eq_true, Bool.not_eq_false'] at here
  exact isDisposable_iff.mpr ⟨(isDisposable_iff.mp disposable).1, here.1, here.2⟩

/-- Sweeping a subtree keeps everything sound and settles its node. -/
theorem Sound.sweep
    (linked : labels.graph.Linked)
    (sound : Sound labels settled state)
    (isOpen : Open labels settled state id)
    (inside : id < labels.graph.size)
    (disposable : isDisposable labels id = true)
    (nothing : hasContent labels id = false)
    (below : ∀ lower, labels.graph.Reaches id lower → id ≠ lower → settled lower) :
    Sound labels (fun node => settled node ∨ node = id) (sweepSubtree labels state id) := by
  obtain ⟨size, ordered, marks⟩ :=
    State.sweepSubtree_spec sound.ordered (sound.marked_below linked inside)
  refine sound.step linked isOpen size ordered ?_ ?_ ?_
  · intro lower apart
    rw [marks, if_neg (mt linked.mem_traverse.mp apart)]
  · intro lower apart
    exact or_iff_left (SceneGraph.ne_of_not_reaches apart).symm
  · intro node reaches
    have swept :
        ∀ lower, labels.graph.Reaches id lower →
          (sweepSubtree labels state id).removal lower = some .noContent := by
      intro lower further
      rw [State.removal_sweepSubtree sound.ordered (sound.marked_below linked inside),
        if_pos (linked.mem_traverse.mpr further)]
    have removed := swept node reaches
    refine ⟨fun _ => disposable_of_no_content linked disposable nothing reaches,
      fun _ _ => .inr removed, by simp [removed], fun _ child member => ?_, ?_, ?_⟩
    · exact swept child (reaches.trans (SceneGraph.Reaches.child member))
    · intro unsettled
      by_cases here : id = node
      · exact absurd (.inr here.symm) unsettled
      · exact absurd (.inl (below node reaches here)) unsettled
    · intro _ eligible
      rw [isEligible_iff, removed] at eligible
      cases eligible.2.2

end Changes

end SceneMarkup.Pruning
