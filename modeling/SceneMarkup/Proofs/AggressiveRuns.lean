import SceneMarkup.Proofs.Indifference
import SceneMarkup.Proofs.PlainRuns

namespace SceneMarkup.Pruning

open Scene Markup

/-!
# Aggressive runs remove no less

A group that prints nothing goes when it is looked at, before anything could move it,
and it does not come back: only nodes that are seen are restored, and a group that is
gone is not seen.  A group that holds nothing but wrappers is swept at the latest.
-/

/-- A group that is there, may go, and prints nothing where it stands in the scene. -/
structure Idle (labels : Labels) (id : NodeId) : Prop where
  disposable : isDisposable labels id = true
  present : labels.graph.isRemoved id = false
  bare : isBare labels id = true
  resting : printedTransform labels (labels.graph.node id).transform = []

/-- Idle groups have not been touched, or they are out of sight. -/
def Dismisses (labels : Labels) (state : State) : Prop :=
  ∀ id, Idle labels id → state.mark id = {} ∨ state.shows id = false

section Decisions

variable {labels : Labels} {settled : NodeId → Prop} {state : State} {id : NodeId}

theorem dismisses_start
    (labels : Labels) :
    Dismisses labels (State.start labels.graph) :=
  fun id _ => .inl (mark_start labels.graph id)

/-- An idle group that shows has not been touched. -/
theorem Dismisses.untouched
    (dismisses : Dismisses labels state)
    (idle : Idle labels id)
    (shows : state.shows id = true) :
    state.mark id = {} := by
  refine (dismisses id idle).resolve_right fun hidden => ?_
  rw [shows] at hidden
  cases hidden

/-- An idle group that shows would still print nothing. -/
theorem Dismisses.resting
    (dismisses : Dismisses labels state)
    (idle : Idle labels id)
    (shows : state.shows id = true) :
    printedTransform labels (state.transform labels.graph id) = [] := by
  rw [State.transform, dismisses.untouched idle shows]
  exact idle.resting

/-- A settled node that shows is not idle. -/
theorem Dismisses.not_idle_of_settled
    (dismisses : Dismisses labels state)
    (sound : Sound labels settled state)
    (isSettled : settled id)
    (shows : state.shows id = true) :
    ¬ Idle labels id := by
  intro idle
  have stays : state.removal id = none := by
    rw [State.removal, dismisses.untouched idle shows]
  have eligible := isEligible_iff.mpr ⟨idle.disposable, idle.present, stays⟩
  exact ((sound.node id).steady isSettled eligible).prints idle.bare
    (dismisses.resting idle shows)

/-- Nothing that a ready group sees is idle. -/
theorem Dismisses.not_idle_front
    (linked : labels.graph.Linked)
    (sound : Sound labels settled state)
    (dismisses : Dismisses labels state)
    (ready : Ready labels settled state id)
    (eligible : isEligible labels state id = true)
    {child : NodeId}
    (seen : child ∈ state.front labels.graph id) :
    ¬ Idle labels child := by
  intro idle
  obtain ⟨exposes, shows⟩ := (State.mem_front linked).mp seen
  have notBone := not_bone_of_group (isDisposable_iff.mp idle.disposable).2.1
  have isSettled := ready.child_settled sound eligible exposes notBone
  exact dismisses.not_idle_of_settled sound isSettled shows idle

/-- Restoring a node that shows touches no other idle group. -/
theorem mark_restore_of_idle
    (linked : labels.graph.Linked)
    (sound : Sound labels settled state)
    (inside : id < labels.graph.size)
    (shows : state.shows id = true)
    {node : NodeId}
    (idle : Idle labels node)
    (differ : id ≠ node) :
    (state.restore id).mark node = state.mark node := by
  have known := sound.node id
  rcases State.shows_iff.mp shows with stays | removed
  · rw [State.restore_of_none stays (known.still_of_stays stays)]
  · obtain ⟨push, folded⟩ := known.folded removed
    obtain ⟨_, _, marks⟩ := mark_restore linked sound inside removed folded
    have notTarget : push.target ≠ node := by
      rintro rfl
      have laden := folded.laden idle.present idle.disposable
      rw [idle.bare] at laden
      cases laden
    rw [marks, if_neg differ, if_neg notTarget]

/-- A group whose marks stand is still untouched or out of sight. -/
theorem Dismisses.of_mark
    (dismisses : Dismisses labels state)
    {other : State}
    {node : NodeId}
    (idle : Idle labels node)
    (same : other.mark node = state.mark node) :
    other.mark node = {} ∨ other.shows node = false := by
  rw [same, State.shows, removal_of_mark same]
  exact dismisses node idle

/-- When the outer of two opposite rotations goes, idle groups are untouched or out of sight. -/
theorem Dismisses.outerGone
    (linked : labels.graph.Linked)
    (sound : Sound labels settled state)
    (dismisses : Dismisses labels state)
    (ready : Ready labels settled state id)
    (eligible : isEligible labels state id = true)
    {child : NodeId}
    (seen : child ∈ state.front labels.graph id) :
    Dismisses labels (outerGone labels state id child) := by
  intro node idle
  have notInner : child ≠ node := by
    rintro rfl
    exact dismisses.not_idle_front linked sound ready eligible seen idle
  by_cases here : id = node
  · obtain ⟨_, _, _, clears, _⟩ := outerGone_spec linked sound ready eligible seen
    exact .inr (State.not_shows_of_clears (here ▸ clears))
  · obtain ⟨exposes, shows⟩ := (State.mem_front linked).mp seen
    have childInside := (linked.forward_of_reaches exposes.reaches exposes.differ).2
    have restored := sound.restore linked (ready.open_front linked exposes) childInside shows
    refine dismisses.of_mark idle ?_
    rw [Pruning.outerGone, State.mark_remove (restored.marked ready.inside), if_neg here]
    exact mark_restore_of_idle linked sound childInside shows idle notInner

/-- Decisions touch an idle group only to take it out of sight. -/
theorem Dismisses.carryOut
    (linked : labels.graph.Linked)
    (sound : Sound labels settled state)
    (dismisses : Dismisses labels state)
    (ready : Ready labels settled state id)
    (eligible : isEligible labels state id = true)
    {decision : Verdict labels.graph id}
    (justified : Justified labels state id decision) :
    Dismisses labels (carryOut labels state id decision) := by
  obtain ⟨_, _, stays⟩ := isEligible_iff.mp eligible
  have inside := sound.marked ready.inside
  intro node idle
  have notSeen : ∀ child ∈ state.front labels.graph id, child ≠ node := by
    rintro child seen rfl
    exact dismisses.not_idle_front linked sound ready eligible seen idle
  cases decision with
  | keep => exact dismisses node idle
  | empty =>
      by_cases here : id = node
      · refine .inr ?_
        rw [Pruning.carryOut, State.shows, State.removal_remove inside, if_pos here]
      · refine dismisses.of_mark idle ?_
        rw [Pruning.carryOut, State.mark_remove inside, if_neg here]
  | cancelBoth child =>
      have seen : child.val ∈ state.front labels.graph id := by simp [justified.1]
      obtain ⟨gone, _⟩ := outerGone_spec linked sound ready eligible seen
      refine (dismisses.outerGone linked sound ready eligible seen).of_mark idle ?_
      exact (State.mark_remove (gone.marked child.property.2) labels _ node).trans
        (if_neg (notSeen child.val seen))
  | cancelOuter child =>
      have seen : child.val ∈ state.front labels.graph id := by simp [justified.1]
      obtain ⟨gone, _⟩ := outerGone_spec linked sound ready eligible seen
      refine (dismisses.outerGone linked sound ready eligible seen).of_mark idle ?_
      exact (State.mark_setTransform (gone.marked child.property.2) _ node).trans
        (if_neg (notSeen child.val seen))
  | fold child =>
      obtain ⟨alone, folds⟩ := justified
      have seen : child.val ∈ state.front labels.graph id := by simp [alone]
      have exposes := ((State.mem_front linked).mp seen).1
      have notHere : id ≠ node := by
        rintro rfl
        exact folds.moving (dismisses.resting idle (State.shows_of_none stays))
      refine dismisses.of_mark idle ?_
      rw [Pruning.carryOut,
        State.mark_foldInto labels inside (sound.marked child.property.2) exposes.differ,
        if_neg notHere, if_neg (notSeen child.val seen)]
  | sweep =>
      have below := sound.marked_below linked ready.inside
      by_cases swept : node ∈ labels.graph.traverse id
      · refine .inr ?_
        rw [Pruning.carryOut, State.shows, State.removal_sweepSubtree sound.ordered below,
          if_pos swept]
      · refine dismisses.of_mark idle ?_
        rw [Pruning.carryOut, (State.sweepSubtree_spec sound.ordered below).2.2, if_neg swept]

/-- In any run, idle groups stay untouched until they go. -/
theorem Dismisses.of_moves
    (linked : labels.graph.Linked)
    {final : State}
    (moves : Moves labels (State.start labels.graph) final) :
    Dismisses labels final := by
  refine moves.preserve (dismisses_start labels) (fun _ _ dismisses => dismisses) ?_
  intro settled state id decision sound ready eligible justified dismisses
  exact dismisses.carryOut linked sound ready eligible justified

/-- When a run ends, no idle group is left that was met. -/
theorem Dismisses.removed_of_idle
    (dismisses : Dismisses labels state)
    (sound : Sound labels settled state)
    (isSettled : settled id)
    (idle : Idle labels id) :
    (state.removal id).isSome = true := by
  by_contra stays
  rw [Option.not_isSome_iff_eq_none] at stays
  exact dismisses.not_idle_of_settled sound isSettled (State.shows_of_none stays) idle

/-- When an aggressive run ends, no group is left that was met and has nothing drawn below it. -/
theorem Sound.removed_of_no_content
    (sound : Sound labels settled state)
    (aggressive : labels.options.aggressive = true)
    (isSettled : settled id)
    (disposable : isDisposable labels id = true)
    (present : labels.graph.isRemoved id = false)
    (nothing : hasContent labels id = false) :
    (state.removal id).isSome = true := by
  by_contra stays
  rw [Option.not_isSome_iff_eq_none] at stays
  have eligible := isEligible_iff.mpr ⟨disposable, present, stays⟩
  have content := ((sound.node id).steady isSettled eligible).content aggressive
  rw [nothing] at content
  cases content

end Decisions

/-- Where everything below a wrapper is one, nothing is drawn. -/
theorem hasContent_of_wrappers
    {graph : SceneGraph}
    {index : InstanceIndex}
    {options : Options}
    (linked : graph.Linked)
    (asked : options.keepGroups = false)
    {id : NodeId}
    (wrappers : ∀ lower, graph.Reaches id lower → Wrapper graph lower) :
    hasContent (Labels.ofGraph graph index options) id = false := by
  rw [hasContent, List.any_eq_false]
  intro lower listed
  have reaches : graph.Reaches id lower := linked.mem_traverse.mp listed
  have disposable : isDisposable (Labels.ofGraph graph index options) lower = true :=
    isDisposable_iff_wrapper.mpr ⟨asked, wrappers lower reaches⟩
  obtain ⟨_, group, notRelevant⟩ := isDisposable_iff.mp disposable
  simp [group, notRelevant]

/-- What a plain run can do without does not outlast an aggressive run. -/
theorem removed_of_superfluous_eagerly
    {graph : SceneGraph}
    (linked : graph.Linked)
    {options other : Options}
    (alike : PrintAlike options other)
    (keepGroups : other.keepGroups = options.keepGroups)
    (aggressive : other.aggressive = true)
    {index otherIndex : InstanceIndex}
    {final : State}
    (moves :
      Moves (Labels.ofGraph graph otherIndex other) (State.start graph) final)
    (sound :
      Sound (Labels.ofGraph graph otherIndex other)
        (· ∈ graph.innermostFirst SceneGraph.root) final)
    {id : NodeId}
    (superfluous : Superfluous graph index options id) :
    (final.removal id).isSome = true := by
  have labelsLinked : (Labels.ofGraph graph otherIndex other).graph.Linked := linked
  have settled := linked.mem_innermostFirst.mpr (superfluous.met linked)
  have asked : other.keepGroups = false := keepGroups.trans superfluous.asked
  have disposable : isDisposable (Labels.ofGraph graph otherIndex other) id = true :=
    isDisposable_iff_wrapper.mpr ⟨asked, superfluous.wrapper⟩
  have group : (graph.node id).kind.isGroup = true := (isDisposable_iff.mp disposable).2.1
  rcases superfluous.idle with nothing | below
  · have printed :
        attributesAt (Labels.ofGraph graph otherIndex other) id (graph.node id).transform =
          .ok [] :=
      (attributesAt_of_unmeshed alike (unmeshed_of_group group) _).trans nothing
    obtain ⟨bare, resting⟩ := (attributesAt_eq_nil_iff group _).mp printed
    exact (Dismisses.of_moves labelsLinked moves).removed_of_idle sound settled
      ⟨disposable, superfluous.present, bare, resting⟩
  · refine sound.removed_of_no_content aggressive settled disposable superfluous.present ?_
    refine hasContent_of_wrappers linked asked fun lower reaches => ?_
    by_cases here : id = lower
    · exact here ▸ superfluous.wrapper
    · exact below lower reaches here

/--
Aggressive runs remove no less than plain ones: with settings that differ in this only, a
group that the plain plan removes is also removed by the aggressive plan, if there is one.
-/
theorem aggressive_plan_removes_no_less
    {graph : SceneGraph}
    (linked : graph.Linked)
    (options : Options)
    (index otherIndex : InstanceIndex)
    {plain eager : Plan}
    (foundPlain :
      (plan (.ofGraph graph index { options with aggressive := false })).result = .ok plain)
    (foundEager :
      (plan (.ofGraph graph otherIndex { options with aggressive := true })).result = .ok eager)
    {entry : NodeId × Removal}
    (removed : entry ∈ plain.removals) :
    entry.1 ∈ eager.removals.map (·.1) := by
  have plainLinked :
      (Labels.ofGraph graph index { options with aggressive := false }).graph.Linked := linked
  obtain ⟨rfl, moves, sound⟩ := run_of_plan plainLinked foundPlain
  have gone := Option.isSome_of_eq_some ((mem_removals_planOf sound).mp removed)
  have superfluous := superfluous_of_removed linked rfl moves sound gone
  have eagerLinked :
      (Labels.ofGraph graph otherIndex { options with aggressive := true }).graph.Linked := linked
  obtain ⟨rfl, eagerMoves, eagerSound⟩ := run_of_plan eagerLinked foundEager
  have alike :
      PrintAlike { options with aggressive := false } { options with aggressive := true } :=
    ⟨rfl, rfl⟩
  have eagerGone :=
    removed_of_superfluous_eagerly linked alike rfl rfl eagerMoves eagerSound superfluous
  obtain ⟨eagerReason, eagerRemoved⟩ := Option.isSome_iff_exists.mp eagerGone
  exact List.mem_map.mpr
    ⟨(entry.1, eagerReason), (mem_removals_planOf eagerSound).mpr eagerRemoved, rfl⟩

/-- The crate and the attic, which a plain run removes, go with the root in an aggressive run as
well, where the group that shifts a box goes, too. -/
theorem aggressive_plan_removes_no_less_atticScene :
    let plain : Plan := ⟨[(9, .empty), (8, .empty), (0, .empty)], []⟩
    let eager : Plan :=
      ⟨[(1, .transformOverlap), (9, .noContent), (8, .noContent), (0, .empty)], [(2, oneStep)]⟩
    (plan (.ofGraph atticScene {} { aggressive := false })).result = .ok plain ∧
      (plan (.ofGraph atticScene {} { aggressive := true })).result = .ok eager ∧
      ∀ entry ∈ plain.removals, entry.1 ∈ eager.removals.map (·.1) := by
  intro plain eager
  have foundPlain :
      (plan (.ofGraph atticScene {} { aggressive := false })).result = .ok plain := by
    decide +kernel
  have foundEager :
      (plan (.ofGraph atticScene {} { aggressive := true })).result = .ok eager := by
    decide +kernel
  exact ⟨foundPlain, foundEager, fun _ removed =>
    aggressive_plan_removes_no_less built_atticScene.linked {} {} {} foundPlain foundEager
      removed⟩

end SceneMarkup.Pruning
