import SceneMarkup.Proofs.Bones
import SceneMarkup.Proofs.SoundDecisions

namespace SceneMarkup.Pruning

open Scene Markup

/-!
# The run as a sequence of decisions

A node is looked at when everything below it outside of bones is settled and
nothing above it is.  Every decision made then keeps the state sound, and a run
is a sequence of such decisions and of reports.
-/

/-- The node is to be looked at next; the run has met it without a bone. -/
structure Ready
    (labels : Labels)
    (settled : NodeId → Prop)
    (state : State)
    (id : NodeId) :
    Prop where
  inside : id < labels.graph.size
  met : labels.graph.ReachesBoneless SceneGraph.root id
  isOpen : Open labels settled state id
  fresh : ¬ settled id
  below :
    ∀ lower, labels.graph.Reaches id lower → id ≠ lower → labels.graph.Boneless id lower →
      settled lower

/-- One decision that is carried out, or one report. -/
inductive Move (labels : Labels) : State → State → Prop
  /-- Something is reported. -/
  | report (state : State) (entry : Report) : Move labels state (state.report entry)
  /-- A decision about an eligible group is carried out. -/
  | decide
      (settled : NodeId → Prop)
      (state : State)
      (id : NodeId)
      (decision : Verdict labels.graph id)
      (sound : Sound labels settled state)
      (ready : Ready labels settled state id)
      (eligible : isEligible labels state id = true)
      (justified : Justified labels state id decision) :
      Move labels state (carryOut labels state id decision)

/-- Any number of decisions and reports. -/
abbrev Moves (labels : Labels) : State → State → Prop :=
  Relation.ReflTransGen (Move labels)

/-- Whatever no report and no decision breaks holds at the end if it holds at the start. -/
theorem Moves.preserve
    {labels : Labels}
    {motive : State → Prop}
    {start final : State}
    (moves : Moves labels start final)
    (begins : motive start)
    (report : ∀ state entry, motive state → motive (state.report entry))
    (decide :
      ∀ (settled : NodeId → Prop) (state : State) (id : NodeId)
        (decision : Verdict labels.graph id),
        Sound labels settled state → Ready labels settled state id →
          isEligible labels state id = true → Justified labels state id decision →
            motive state → motive (carryOut labels state id decision)) :
    motive final := by
  induction moves with
  | refl => exact begins
  | tail _ move ih =>
      cases move with
      | report _ entry => exact report _ entry ih
      | decide settled _ id decision sound ready eligible justified =>
          exact decide settled _ id decision sound ready eligible justified ih

section Steps

variable {labels : Labels} {settled : NodeId → Prop} {state : State} {id : NodeId}

theorem Sound.of_marks
    (linked : labels.graph.Linked)
    (sound : Sound labels settled state)
    {other : State}
    (marks : other.marks = state.marks)
    (order : other.order = state.order) :
    Sound labels settled other := by
  have mark : other.mark = state.mark := by
    funext id
    rw [State.mark, State.mark, marks]
  refine ⟨by rw [marks, sound.size], ⟨order ▸ sound.ordered.nodup, fun id => ?_⟩, fun id => ?_⟩
  · rw [order, State.removal, mark]
    exact sound.ordered.listed id
  · exact (sound.node id).congr linked (fun lower _ => by rw [mark]) Iff.rfl

theorem reports_marks
    (reports : List Report)
    (state : State) :
    (reports.foldl State.report state).marks = state.marks ∧
      (reports.foldl State.report state).order = state.order := by
  induction reports generalizing state with
  | nil => exact ⟨rfl, rfl⟩
  | cons entry rest ih => exact ih (state.report entry)

theorem moves_reports
    (labels : Labels)
    (reports : List Report)
    (state : State) :
    Moves labels state (reports.foldl State.report state) := by
  induction reports generalizing state with
  | nil => exact Relation.ReflTransGen.refl
  | cons entry rest ih =>
      exact Relation.ReflTransGen.head (Move.report state entry) (ih (state.report entry))

theorem Open.transfer
    (isOpen : Open labels settled state id)
    {other : State}
    (same :
      ∀ upper, labels.graph.Reaches upper id → upper ≠ id →
        other.removal upper = state.removal upper) :
    Open labels settled other id := by
  intro upper reaches differ
  rw [clears_of_removal (same upper reaches differ)]
  exact isOpen upper reaches differ

/-- The children in front of a group are below it, and no bone is met on the way. -/
theorem not_bone_between
    (sound : Sound labels settled state)
    (eligible : isEligible labels state id = true)
    {child middle : NodeId}
    (exposes : labels.graph.Exposes state.clears id child)
    (fromId : labels.graph.Reaches id middle)
    (toChild : labels.graph.Reaches middle child)
    (differ : middle ≠ child) :
    (labels.graph.node middle).kind.isBone = false := by
  have disposable : isDisposable labels middle = true := by
    by_cases here : id = middle
    · exact here ▸ (isEligible_iff.mp eligible).1
    · have clears := exposes.between middle fromId here toChild differ
      exact (sound.node middle).disposable (State.isSome_of_clears clears)
  exact not_bone_of_group (isDisposable_iff.mp disposable).2.1

/-- A child in front of a ready group that is no bone itself is settled. -/
theorem Ready.child_settled
    (ready : Ready labels settled state id)
    (sound : Sound labels settled state)
    (eligible : isEligible labels state id = true)
    {child : NodeId}
    (exposes : labels.graph.Exposes state.clears id child)
    (notBone : (labels.graph.node child).kind.isBone = false) :
    settled child := by
  refine ready.below child exposes.reaches exposes.differ fun middle fromId toChild => ?_
  by_cases here : middle = child
  · exact here ▸ notBone
  · exact not_bone_between sound eligible exposes fromId toChild here

/-- A child in front of a ready group that is no bone itself is met without a bone. -/
theorem Ready.met_front
    (ready : Ready labels settled state id)
    (linked : labels.graph.Linked)
    (sound : Sound labels settled state)
    (eligible : isEligible labels state id = true)
    {child : NodeId}
    (exposes : labels.graph.Exposes state.clears id child)
    (notBone : (labels.graph.node child).kind.isBone = false) :
    labels.graph.ReachesBoneless SceneGraph.root child where
  reaches := ready.met.reaches.trans exposes.reaches
  boneless := by
    intro middle fromRoot toChild
    rcases linked.reaches_comparable toChild exposes.reaches with up | down
    · exact ready.met.boneless middle fromRoot up
    · by_cases here : middle = child
      · exact here ▸ notBone
      · exact not_bone_between sound eligible exposes down toChild here

/-- Steady groups are left as they are; at most something is reported. -/
theorem rewrite_of_steady
    (steady : isEligible labels state id = true → Steady labels state id) :
    ∃ reports : List Report,
      rewrite labels state id = ⟨reports.foldl State.report state, none⟩ := by
  cases eligible : isEligible labels state id with
  | false => exact ⟨[], by rw [rewrite, eligible]; rfl⟩
  | true =>
      obtain ⟨reports, reached⟩ := verdict_of_steady (steady eligible)
      exact ⟨reports, by rw [rewrite, eligible, reached]; rfl⟩

/-- States with the same marks come to the same verdict. -/
theorem verdict_of_marks
    (linked : labels.graph.Linked)
    {other : State}
    (mark : other.mark = state.mark)
    (id : NodeId) :
    verdict labels other id = verdict labels state id := by
  have transform : other.transform = state.transform := by
    funext graph node
    rw [State.transform, State.transform, mark]
  have seen :
      other.effectiveChildren labels.graph id = state.effectiveChildren labels.graph id := by
    have front : other.front labels.graph id = state.front labels.graph id :=
      State.front_congr linked fun lower _ _ => by rw [State.removal, State.removal, mark]
    exact List.map_injective_iff.mpr Subtype.val_injective front
  have pending : pendingAttributes labels other = pendingAttributes labels state := by
    funext node
    rw [pendingAttributes, pendingAttributes, transform]
  have only : onlyChildVerdict labels other id = onlyChildVerdict labels state id := by
    funext child attributes childAttributes
    have opposite :
        rotationsCancel labels other id child.val = rotationsCancel labels state id child.val := by
      rw [rotationsCancel, rotationsCancel, transform]
    unfold onlyChildVerdict
    rw [opposite]
  unfold verdict
  rw [pending, seen, only]

/-- Restoring a node that shows lets it stay, and nothing outside of its subtree changes. -/
theorem restore_spec
    (linked : labels.graph.Linked)
    (sound : Sound labels settled state)
    (inside : id < labels.graph.size)
    (shows : state.shows id = true) :
    (state.restore id).removal id = none ∧
      (∀ other, other ≠ id → (state.restore id).removal other = state.removal other) ∧
      ∀ lower, ¬ labels.graph.Reaches id lower →
        (state.restore id).mark lower = state.mark lower := by
  have known := sound.node id
  rcases State.shows_iff.mp shows with stays | removed
  · rw [State.restore_of_none stays (known.still_of_stays stays)]
    exact ⟨stays, fun _ _ => rfl, fun _ _ => rfl⟩
  · obtain ⟨push, folded⟩ := known.folded removed
    obtain ⟨_, _, marks⟩ := mark_restore linked sound inside removed folded
    refine ⟨by rw [State.removal, marks, if_pos rfl], fun other differ => ?_, fun lower apart => ?_⟩
    · rw [State.removal, marks, if_neg (Ne.symm differ), State.removal]
      split <;> rfl
    · rw [marks, if_neg (SceneGraph.ne_of_not_reaches apart),
        if_neg ((folded.exposes linked).reaches.ne_of_not_reaches apart)]

/-- A node stays open when a node that is not above it is restored and unsettled. -/
theorem Open.restore
    (linked : labels.graph.Linked)
    (sound : Sound labels settled state)
    (inside : id < labels.graph.size)
    (shows : state.shows id = true)
    {node : NodeId}
    (isOpen : Open labels settled state node)
    (notAbove : ∀ upper, labels.graph.Reaches upper node → upper ≠ node → upper ≠ id) :
    Open labels (fun node => settled node ∧ node ≠ id) (state.restore id) node := by
  obtain ⟨_, others, _⟩ := restore_spec linked sound inside shows
  intro upper reaches differ
  rw [clears_of_removal (others upper (notAbove upper reaches differ))]
  exact (isOpen upper reaches differ).imp_left fun unsettled isSettled => unsettled isSettled.1

/-- What is in front of a ready group is open. -/
theorem Ready.open_front
    (ready : Ready labels settled state id)
    (linked : labels.graph.Linked)
    {child : NodeId}
    (exposes : labels.graph.Exposes state.clears id child) :
    Open labels settled state child := by
  intro upper reaches differ
  by_cases here : upper = id
  · exact .inl (here ▸ ready.fresh)
  · rcases linked.reaches_comparable reaches exposes.reaches with up | down
    · exact ready.isOpen upper up here
    · exact .inr (exposes.between upper down (Ne.symm here) reaches differ)

/-- A ready group stays open when a node in front of it is restored. -/
theorem Ready.open_restored
    (ready : Ready labels settled state id)
    (linked : labels.graph.Linked)
    (sound : Sound labels settled state)
    {child : NodeId}
    (exposes : labels.graph.Exposes state.clears id child)
    (shows : state.shows child = true) :
    Open labels (fun node => settled node ∧ node ≠ child) (state.restore child) id := by
  have childInside := (linked.forward_of_reaches exposes.reaches exposes.differ).2
  refine Open.restore linked sound childInside shows ready.isOpen fun upper reaches _ => ?_
  rintro rfl
  exact exposes.differ (linked.reaches_antisymm exposes.reaches reaches)

theorem remove_outside
    (inside : id < state.marks.size)
    (reason : Removal)
    {lower : NodeId}
    (apart : ¬ labels.graph.Reaches id lower) :
    (state.remove labels id reason).mark lower = state.mark lower := by
  rw [State.mark_remove inside, if_neg (SceneGraph.ne_of_not_reaches apart)]

/-- The state after the outer of two opposite rotations has gone. -/
def outerGone (labels : Labels) (state : State) (id child : NodeId) : State :=
  (state.restore child).remove labels id .doubleNegative

theorem carryOut_cancelBoth_eq
    (child : labels.graph.Later id) :
    carryOut labels state id (.cancelBoth child) =
      (outerGone labels state id child.val).remove labels child.val .doubleNegative :=
  rfl

theorem carryOut_cancelOuter_eq
    (child : labels.graph.Later id) :
    carryOut labels state id (.cancelOuter child) =
      dropRotation labels.graph (outerGone labels state id child.val) child.val :=
  rfl

/-- When the outer of two opposite rotations goes, the inner one stays and is unsettled. -/
theorem outerGone_spec
    (linked : labels.graph.Linked)
    (sound : Sound labels settled state)
    (ready : Ready labels settled state id)
    (eligible : isEligible labels state id = true)
    {child : NodeId}
    (seen : child ∈ state.front labels.graph id) :
    Sound labels (fun node => settled node ∧ node ≠ child) (outerGone labels state id child) ∧
      Open labels (fun node => settled node ∧ node ≠ child) (outerGone labels state id child)
        child ∧
      (outerGone labels state id child).removal child = none ∧
      (outerGone labels state id child).clears id = true ∧
      ∀ lower, ¬ labels.graph.Reaches id lower →
        (outerGone labels state id child).mark lower = state.mark lower := by
  obtain ⟨exposes, shows⟩ := (State.mem_front linked).mp seen
  obtain ⟨disposable, _, stays⟩ := isEligible_iff.mp eligible
  have childInside := (linked.forward_of_reaches exposes.reaches exposes.differ).2
  have childOpen := ready.open_front linked exposes
  have restored := sound.restore linked childOpen childInside shows
  obtain ⟨childStays, others, outside⟩ := restore_spec linked sound childInside shows
  have openHere := ready.open_restored linked sound exposes shows
  have staysHere : (state.restore child).removal id = none := by
    rw [others id exposes.differ, stays]
  have insideMarks : id < (state.restore child).marks.size := restored.marked ready.inside
  have removal := State.removal_remove insideMarks labels .doubleNegative
  have gone : (outerGone labels state id child).clears id = true := by
    rw [State.clears_iff, outerGone, removal, if_pos rfl]
    exact .inr rfl
  have kept :
      ∀ other, other ≠ id → other ≠ child →
        (outerGone labels state id child).removal other = state.removal other := by
    intro other notSelf notChild
    rw [outerGone, removal, if_neg (Ne.symm notSelf)]
    exact others other notChild
  refine ⟨restored.remove linked openHere ready.inside staysHere disposable (.inr rfl), ?_, ?_,
    gone, fun lower apart => ?_⟩
  · intro upper reaches differ
    by_cases here : upper = id
    · rw [here]
      exact .inr gone
    · rw [clears_of_removal (kept upper here differ)]
      exact (childOpen upper reaches differ).imp_left fun unsettled isSettled =>
        unsettled isSettled.1
  · rw [outerGone, removal, if_neg exposes.differ]
    exact childStays
  · rw [outerGone, remove_outside insideMarks _ apart]
    exact outside lower fun further => apart (exposes.reaches.trans further)

theorem not_eligible_of_isSome
    (removed : (state.removal id).isSome = true) :
    isEligible labels state id = false := by
  simp [isEligible, Option.isNone_eq_false_iff.mpr removed]

/-- Nothing is asked of a removed node. -/
theorem steady_of_removed
    (removed : (state.removal id).isSome = true)
    (eligible : isEligible labels state id = true) :
    Steady labels state id := by
  rw [not_eligible_of_isSome removed] at eligible
  cases eligible

/-- A decision that moves no child changes marks in the subtree only and settles its group. -/
theorem carryOut_settles
    (linked : labels.graph.Linked)
    (sound : Sound labels settled state)
    (ready : Ready labels settled state id)
    (eligible : isEligible labels state id = true)
    {decision : Verdict labels.graph id}
    (justified : Justified labels state id decision)
    (final : decision.moved? = none) :
    (∀ lower, ¬ labels.graph.Reaches id lower →
        (carryOut labels state id decision).mark lower = state.mark lower) ∧
      Sound labels (fun node => settled node ∨ node = id) (carryOut labels state id decision) := by
  obtain ⟨disposable, _, stays⟩ := isEligible_iff.mp eligible
  have inside : id < state.marks.size := sound.marked ready.inside
  cases decision with
  | keep =>
      refine ⟨fun _ _ => rfl, sound.resettle ?_ fun node unsettled => ?_⟩
      · rintro node (isSettled | rfl)
        · exact .inl isSettled
        · exact .inr fun _ => justified
      · exact .inl fun isSettled => unsettled (.inl isSettled)
  | empty =>
      have removed := sound.remove linked ready.isOpen ready.inside stays disposable (.inl rfl)
      refine ⟨fun lower apart => remove_outside inside _ apart, removed.resettle ?_ ?_⟩
      · rintro node (isSettled | rfl)
        · exact .inl isSettled
        · exact .inr (steady_of_removed (by rw [State.removal, State.mark_remove inside]; simp))
      · exact fun node unsettled => .inl fun isSettled => unsettled (.inl isSettled)
  | cancelBoth child =>
      obtain ⟨alone, cancels, _⟩ := justified
      have seen : child.val ∈ state.front labels.graph id := by simp [alone]
      have exposes := ((State.mem_front linked).mp seen).1
      obtain ⟨gone, childOpen, childStays, clears, outside⟩ :=
        outerGone_spec linked sound ready eligible seen
      have childInside := child.property.2
      have childInsideMarks : child.val < (outerGone labels state id child.val).marks.size :=
        gone.marked childInside
      have both :=
        gone.remove linked childOpen childInside childStays cancels.disposable (.inr rfl)
      have marks := State.mark_remove childInsideMarks labels .doubleNegative
      refine ⟨fun lower apart => ?_, both.resettle ?_ ?_⟩
      · exact (remove_outside childInsideMarks _
          fun further => apart (exposes.reaches.trans further)).trans (outside lower apart)
      · intro node isSettled
        by_cases atChild : node = child.val
        · rw [atChild]
          exact .inr (steady_of_removed (by rw [State.removal, marks]; simp))
        · rcases isSettled with before | rfl
          · exact .inl ⟨before, atChild⟩
          · refine .inr (steady_of_removed ?_)
            rw [State.removal, marks, if_neg (Ne.symm exposes.differ)]
            exact State.isSome_of_clears clears
      · exact fun node unsettled => .inl fun isSettled => unsettled (.inl isSettled.1)
  | cancelOuter child => cases final
  | fold child => cases final
  | sweep =>
      have nothing := justified.2
      have settledBelow :
          ∀ lower, labels.graph.Reaches id lower → id ≠ lower → settled lower := by
        intro lower reaches differ
        refine ready.below lower reaches differ fun middle fromId _ => ?_
        have group := disposable_of_no_content linked disposable nothing fromId
        exact not_bone_of_group (isDisposable_iff.mp group).2.1
      refine ⟨fun lower apart => ?_,
        sound.sweep linked ready.isOpen ready.inside disposable nothing settledBelow⟩
      obtain ⟨_, _, marks⟩ :=
        State.sweepSubtree_spec sound.ordered (sound.marked_below linked ready.inside)
      rw [carryOut, marks, if_neg (mt linked.mem_traverse.mp apart)]

/-- When the inner of two opposite rotations is kept, it is to be looked at next. -/
theorem carryOut_cancelOuter
    (linked : labels.graph.Linked)
    (sound : Sound labels settled state)
    (ready : Ready labels settled state id)
    (eligible : isEligible labels state id = true)
    {child : labels.graph.Later id}
    (seen : child.val ∈ state.front labels.graph id)
    (group : (labels.graph.node child.val).kind.isGroup = true) :
    (∀ lower, ¬ labels.graph.Reaches id lower →
        (carryOut labels state id (.cancelOuter child)).mark lower = state.mark lower) ∧
      Sound labels (fun node => settled node ∧ node ≠ child.val)
        (carryOut labels state id (.cancelOuter child)) ∧
      Ready labels (fun node => settled node ∧ node ≠ child.val)
        (carryOut labels state id (.cancelOuter child)) child.val ∧
      (carryOut labels state id (.cancelOuter child)).clears id = true := by
  have exposes := ((State.mem_front linked).mp seen).1
  obtain ⟨gone, childOpen, childStays, clears, outside⟩ :=
    outerGone_spec linked sound ready eligible seen
  have childInside := child.property.2
  have insideMarks : child.val < (outerGone labels state id child.val).marks.size :=
    gone.marked childInside
  have unsettled : ¬ (settled child.val ∧ child.val ≠ child.val) := fun both => both.2 rfl
  rw [carryOut_cancelOuter_eq, dropRotation]
  generalize
    { (outerGone labels state id child.val).transform labels.graph child.val with
      rotation := .zero } = unturned
  have moved := gone.setTransform linked childOpen childInside childStays unsettled unturned
  have marks := State.mark_setTransform insideMarks unturned
  have kept :
      ∀ other, other ≠ child.val →
        ((outerGone labels state id child.val).setTransform child.val unturned).mark other =
          (outerGone labels state id child.val).mark other := by
    intro other differ
    rw [marks, if_neg (Ne.symm differ)]
  have childMet := ready.met_front linked sound eligible exposes (not_bone_of_group group)
  refine ⟨fun lower apart => ?_, moved, ⟨childInside, childMet, ?_, unsettled, ?_⟩, ?_⟩
  · have notChild := (exposes.reaches.ne_of_not_reaches apart).symm
    exact (kept lower notChild).trans (outside lower apart)
  · exact childOpen.transfer fun upper _ differ => removal_of_mark (kept upper differ)
  · intro lower reaches differ noBone
    refine ⟨ready.below lower (exposes.reaches.trans reaches) ?_ ?_, Ne.symm differ⟩
    · rintro rfl
      exact exposes.differ (linked.reaches_antisymm exposes.reaches reaches)
    · intro middle fromId toLower
      rcases linked.reaches_comparable toLower reaches with up | down
      · by_cases here : middle = child.val
        · exact here ▸ not_bone_of_group group
        · exact not_bone_between sound eligible exposes fromId up here
      · exact noBone middle down toLower
  · rw [clears_of_removal (removal_of_mark (kept id exposes.differ))]
    exact clears

/-- A fold changes marks in the subtree only and settles its group. -/
theorem carryOut_fold
    (linked : labels.graph.Linked)
    (sound : Sound labels settled state)
    (ready : Ready labels settled state id)
    (eligible : isEligible labels state id = true)
    {child : labels.graph.Later id}
    (alone : state.front labels.graph id = [child.val])
    (folds : Folds labels state id child.val) :
    (∀ lower, ¬ labels.graph.Reaches id lower →
        (carryOut labels state id (.fold child)).mark lower = state.mark lower) ∧
      Sound labels (fun node => settled node ∨ node = id)
        (carryOut labels state id (.fold child)) ∧
      settled child.val := by
  have seen : child.val ∈ state.front labels.graph id := by simp [alone]
  have exposes := ((State.mem_front linked).mp seen).1
  have childSettled := ready.child_settled sound eligible exposes folds.notBone
  refine ⟨fun lower apart => ?_,
    sound.fold linked ready.isOpen ready.inside eligible alone folds fun _ => childSettled,
    childSettled⟩
  rw [carryOut,
    State.mark_foldInto labels (sound.marked ready.inside) (sound.marked child.property.2)
      exposes.differ,
    if_neg (SceneGraph.ne_of_not_reaches apart),
    if_neg (exposes.reaches.ne_of_not_reaches apart)]

/-- What is known after a node was looked at. -/
structure Rewritten
    (labels : Labels)
    (settled : NodeId → Prop)
    (state : State)
    (id : NodeId)
    (outcome : Outcome) :
    Prop where
  moves : Moves labels state outcome.state
  outside :
    ∀ lower, ¬ labels.graph.Reaches id lower → outcome.state.mark lower = state.mark lower
  sound :
    outcome.fault = none → Sound labels (fun node => settled node ∨ node = id) outcome.state

/-- Carry a decision out and go on with the child that it moved. -/
def proceed
    (labels : Labels)
    (state : State)
    (id : NodeId)
    (decision : Verdict labels.graph id) :
    Outcome :=
  match decision.moved? with
  | some child => rewrite labels (carryOut labels state id decision) child.val
  | none => ⟨carryOut labels state id decision, none⟩

theorem rewrite_of_verdict
    (eligible : isEligible labels state id = true)
    {decision : Verdict labels.graph id}
    {reports : List Report}
    (reached : verdict labels state id = .ok (decision, reports)) :
    rewrite labels state id = proceed labels (reports.foldl State.report state) id decision := by
  rw [rewrite, eligible, reached]
  rfl

/-- A decision settles its group if looking at the child that it moved settles the child. -/
theorem proceed_spec
    (linked : labels.graph.Linked)
    (sound : Sound labels settled state)
    (ready : Ready labels settled state id)
    (eligible : isEligible labels state id = true)
    {decision : Verdict labels.graph id}
    (justified : Justified labels state id decision)
    (next :
      ∀ child : NodeId, ∀ (settledThen : NodeId → Prop) (between : State),
        labels.graph.Reaches id child → id ≠ child →
        Sound labels settledThen between → Ready labels settledThen between child →
        Rewritten labels settledThen between child (rewrite labels between child)) :
    Rewritten labels settled state id (proceed labels state id decision) := by
  have move : Moves labels state (carryOut labels state id decision) :=
    Relation.ReflTransGen.single
      (Move.decide settled state id decision sound ready eligible justified)
  cases final : decision.moved? with
  | none =>
      obtain ⟨outside, after⟩ := carryOut_settles linked sound ready eligible justified final
      rw [proceed, final]
      exact ⟨move, outside, fun _ => after⟩
  | some child =>
      rw [proceed, final]
      cases decision with
      | cancelOuter same =>
          cases final
          obtain ⟨alone, cancels, _⟩ := justified
          have seen : child.val ∈ state.front labels.graph id := by simp [alone]
          have exposes := ((State.mem_front linked).mp seen).1
          obtain ⟨outside, after, readyNext, clears⟩ :=
            carryOut_cancelOuter linked sound ready eligible seen cancels.group
          have childSettled :=
            ready.child_settled sound eligible exposes (not_bone_of_group cancels.group)
          have rest := next child.val _ _ exposes.reaches exposes.differ after readyNext
          refine ⟨move.trans rest.moves, fun lower apart => ?_, fun done => ?_⟩
          · exact (rest.outside lower fun further =>
              apart (exposes.reaches.trans further)).trans (outside lower apart)
          · have notBelow : ¬ labels.graph.Reaches child.val id :=
              fun up => exposes.differ (linked.reaches_antisymm exposes.reaches up)
            have gone :
                isEligible labels (rewrite labels
                  (carryOut labels state id (.cancelOuter child)) child.val).state id = false := by
              refine not_eligible_of_isSome ?_
              rw [removal_of_mark (rest.outside id notBelow)]
              exact State.isSome_of_clears clears
            refine (rest.sound done).resettle ?_ fun node unsettled => .inl ?_
            · rintro node (isSettled | rfl)
              · by_cases atChild : node = child.val
                · exact .inl (.inr atChild)
                · exact .inl (.inl ⟨isSettled, atChild⟩)
              · refine .inr fun contrary => ?_
                rw [gone] at contrary
                cases contrary
            · rintro (⟨isSettled, _⟩ | rfl)
              · exact unsettled (.inl isSettled)
              · exact unsettled (.inl childSettled)
      | fold same =>
          cases final
          obtain ⟨alone, folds⟩ := justified
          obtain ⟨outside, after, childSettled⟩ :=
            carryOut_fold linked sound ready eligible alone folds
          obtain ⟨reports, kept⟩ :=
            rewrite_of_steady ((after.node child.val).steady (.inl childSettled))
          obtain ⟨marks, order⟩ :=
            reports_marks reports (carryOut labels state id (.fold child))
          show Rewritten labels settled state id
            (rewrite labels (carryOut labels state id (.fold child)) child.val)
          rw [kept]
          refine ⟨move.trans (moves_reports labels reports _), fun lower apart => ?_,
            fun _ => after.of_marks linked marks order⟩
          rw [← outside lower apart, State.mark, State.mark, marks]
      | keep => cases final
      | empty => cases final
      | cancelBoth child => cases final
      | sweep => cases final

/-- Reports change nothing that a decision rests on. -/
theorem after_reports
    (linked : labels.graph.Linked)
    (sound : Sound labels settled state)
    (ready : Ready labels settled state id)
    (eligible : isEligible labels state id = true)
    {decision : Verdict labels.graph id}
    {reports : List Report}
    (reached : verdict labels state id = .ok (decision, reports)) :
    (reports.foldl State.report state).mark = state.mark ∧
      Sound labels settled (reports.foldl State.report state) ∧
      Ready labels settled (reports.foldl State.report state) id ∧
      isEligible labels (reports.foldl State.report state) id = true ∧
      verdict labels (reports.foldl State.report state) id = .ok (decision, reports) := by
  obtain ⟨marks, order⟩ := reports_marks reports state
  generalize reports.foldl State.report state = reported at marks order
  have mark : reported.mark = state.mark := by
    funext node
    simp only [State.mark, marks]
  have removal : ∀ node, reported.removal node = state.removal node :=
    fun node => removal_of_mark (congrFun mark node)
  refine ⟨mark, sound.of_marks linked marks order, ?_, ?_, ?_⟩
  · exact ⟨ready.inside, ready.met, ready.isOpen.transfer fun upper _ _ => removal upper,
      ready.fresh, ready.below⟩
  · rw [isEligible_of_removal (removal id), eligible]
  · rw [verdict_of_marks linked mark, reached]

/-- Looking at a node settles it and keeps the state sound. -/
theorem rewrite_spec
    (linked : labels.graph.Linked)
    (sound : Sound labels settled state)
    (ready : Ready labels settled state id) :
    Rewritten labels settled state id (rewrite labels state id) := by
  induction id using linked.descendantsFirst generalizing settled state with
  | step id ih =>
      cases eligible : isEligible labels state id with
      | false =>
          rw [rewrite, eligible]
          refine ⟨Relation.ReflTransGen.refl, fun _ _ => rfl, fun _ => ?_⟩
          refine sound.resettle ?_ fun node unsettled =>
            .inl fun isSettled => unsettled (.inl isSettled)
          rintro node (isSettled | rfl)
          · exact .inl isSettled
          · exact .inr fun contrary => by simp [eligible] at contrary
      | true =>
          cases reached : verdict labels state id with
          | error fault =>
              rw [rewrite, eligible, reached]
              exact ⟨Relation.ReflTransGen.refl, fun _ _ => rfl, fun contrary => by cases contrary⟩
          | ok answer =>
              obtain ⟨decision, reports⟩ := answer
              obtain ⟨mark, soundHere, readyHere, eligibleHere, again⟩ :=
                after_reports linked sound ready eligible reached
              rw [rewrite_of_verdict eligible reached]
              have done := proceed_spec linked soundHere readyHere eligibleHere
                (verdict_justified again)
                fun child _ _ reaches differ soundThen readyThen =>
                  ih child reaches differ soundThen readyThen
              exact ⟨(moves_reports labels reports state).trans done.moves,
                fun lower apart => (done.outside lower apart).trans (congrFun mark lower),
                done.sound⟩

end Steps

end SceneMarkup.Pruning
