import SceneMarkup.Proofs.Cancelling

namespace SceneMarkup.Pruning

open Scene Markup

universe u

/-!
# Accounting for a run

A decision that cancels rotations adds a pair of groups to the account, and no
other decision changes it.  So the final state of a run stands for the scene
without the rotations of some pairs of opposed groups.
-/

section Decisions

variable {labels : Labels} {settled : NodeId → Prop} {cancelled : Cancellations}
  {state other : State} {id : NodeId}

/-- A node below two opposed groups stays where it is if they turn back. -/
theorem Unmoved.cons
    (linked : labels.graph.Linked)
    (tidy : Tidy labels.graph)
    (exact : labels.graph.IsExact labels.options.precision)
    (legible : labels.graph.IsLegible labels.options.precision)
    (accounted : Accounted.{u} labels cancelled state)
    {outer inner : NodeId}
    (opposed : Opposed labels outer inner)
    (outerOwn : cancelled.leftOver labels.graph outer = (labels.graph.node outer).transform)
    (innerOwn : cancelled.leftOver labels.graph inner = (labels.graph.node inner).transform)
    (exposes : labels.graph.Exposes state.clears outer inner)
    (reached : labels.graph.Reaches SceneGraph.root id)
    (shows : state.shows id = true)
    (passes : labels.graph.Reaches outer id → labels.graph.Reaches inner id) :
    Unmoved.{u} labels ((outer, inner) :: cancelled) id := by
  intro M _ reading back
  rw [← accounted.unmoved id reached shows reading fun pair member below =>
    back pair (List.mem_cons_of_mem _ member) below]
  have insideOf : ∀ node, labels.graph.Reaches node id → node < labels.graph.size :=
    fun node below => linked.inside_of_reached (linked.reached_above reached below)
  have other :
      ∀ node, node ≠ outer → node ≠ inner →
        labels.graph.share reading (cancelled.leftOver labels.graph) node =
          labels.graph.share reading
            (Cancellations.leftOver ((outer, inner) :: cancelled) labels.graph) node :=
    fun node notOuter notInner =>
      (SceneGraph.share_congr (Cancellations.leftOver_cons_other notOuter notInner)).symm
  rw [SceneGraph.placementWith_eq, SceneGraph.placementWith_eq]
  -- Between the two groups, the turn of the outer one is handed down.
  refine (linked.prod_path_handed (reading.motion (labels.graph.node outer).transform) reached
    opposed.reaches opposed.differ passes ?_ ?_ ?_ ?_).symm
  · intro above
    have inside := insideOf outer above
    have quiet := Transform.unturned_printsNothing (exact outer inside) opposed.turning
    rw [SceneGraph.share_of_present opposed.present, SceneGraph.share_of_present opposed.present,
      outerOwn, Cancellations.leftOver_cons_outer,
      reading.motion_of_printsNothing (Transform.isExact_unturned (exact outer inside))
        (Transform.isLegible_unturned (legible outer inside)) quiet, one_mul]
  · intro node fromOuter notOuter toInner notInner above
    have clears := exposes.between node fromOuter notOuter toInner notInner
    have deeper : node ≠ id := by
      rintro rfl
      exact notInner (linked.reaches_antisymm toInner above)
    have nothing := (accounted.clear node clears).resolve_right fun barren => by
      rw [barren id (toInner.trans above) deeper] at shows
      cases shows
    have rest :=
      Cancellations.motion_leftOver reading exact legible (insideOf node (toInner.trans above))
        nothing
    rw [← other node (Ne.symm notOuter) notInner, SceneGraph.share_of_rest rest, one_mul, mul_one]
  · intro above
    have turned := back (outer, inner) List.mem_cons_self above
    have insideOuter := insideOf outer (opposed.reaches.trans above)
    have turns := reading.motion_of_turning (exact outer insideOuter)
      (legible outer insideOuter) opposed.turning
    rw [TurnsBack, ← turns] at turned
    have later := (linked.forward_of_reaches opposed.reaches opposed.differ).1
    have present := tidy inner (linked.reached_above reached above)
      (Nat.ne_of_gt (Nat.zero_lt_of_lt later))
    rw [SceneGraph.share_of_present present, SceneGraph.share_of_present present, innerOwn,
      Cancellations.leftOver_cons_inner, turned]
  · intro node apart
    refine other node ?_ ?_
    · rintro rfl
      exact apart ⟨SceneGraph.Reaches.refl node, opposed.reaches⟩
    · rintro rfl
      exact apart ⟨opposed.reaches, SceneGraph.Reaches.refl node⟩

/-- From one state to another, an outer group goes and an inner one goes or is unturned. -/
structure CancelsOut
    (labels : Labels)
    (state other : State)
    (outer inner : NodeId) : Prop where
  outerStays : state.removal outer = none
  innerStays : state.removal inner = none
  gone : other.removal outer = some .doubleNegative
  elsewhere : ∀ node, node ≠ outer → node ≠ inner → other.mark node = state.mark node
  innerAfter :
    (other.removal inner = none ∧
        other.transform labels.graph inner = (labels.graph.node inner).transform.unturned) ∨
      (other.removal inner = some .doubleNegative ∧
        printedTransform labels (labels.graph.node inner).transform.unturned = [])

namespace CancelsOut

variable {outer inner : NodeId}

theorem ne_outer
    (step : CancelsOut labels state other outer inner)
    (shows : other.shows id = true) :
    id ≠ outer := by
  rintro rfl
  simp [State.shows, step.gone] at shows

theorem shows_before
    (step : CancelsOut labels state other outer inner)
    (shows : other.shows id = true) :
    state.shows id = true := by
  by_cases atInner : id = inner
  · rw [atInner]
    exact State.shows_of_none step.innerStays
  · have same := step.elsewhere id (step.ne_outer shows) atInner
    rwa [State.shows, removal_of_mark same] at shows

theorem mark_of_folded
    (step : CancelsOut labels state other outer inner)
    (folds : state.removal id = some .transformOverlap) :
    other.mark id = state.mark id :=
  step.elsewhere id (state.ne_of_removal (by simp [folds, step.outerStays]))
    (state.ne_of_removal (by simp [folds, step.innerStays]))

theorem mark_of_folded_after
    (step : CancelsOut labels state other outer inner)
    (folds : other.removal id = some .transformOverlap) :
    other.mark id = state.mark id := by
  refine step.elsewhere id (other.ne_of_removal ?_) (other.ne_of_removal ?_)
  · simp [folds, step.gone]
  · rcases step.innerAfter with ⟨known, _⟩ | ⟨known, _⟩ <;> simp [folds, known]

/-- What a removed node has left over prints nothing, or nothing below it shows. -/
theorem clear
    (step : CancelsOut labels state other outer inner)
    (exact : (labels.graph.node outer).transform.isExact labels.options.precision = true)
    (opposed : Opposed labels outer inner)
    (accounted : Accounted.{u} labels cancelled state)
    (clears : other.clears id = true) :
    printedTransform labels
        (Cancellations.leftOver ((outer, inner) :: cancelled) labels.graph id) = [] ∨
      Barren labels other id := by
  by_cases atOuter : id = outer
  · rw [atOuter, Cancellations.leftOver_cons_outer]
    exact .inl (Transform.unturned_printsNothing exact opposed.turning)
  · by_cases atInner : id = inner
    · subst atInner
      rw [Cancellations.leftOver_cons_inner]
      rcases step.innerAfter with ⟨stays, _⟩ | ⟨_, nothing⟩
      · simp [State.clears, stays] at clears
      · exact .inl nothing
    · rw [clears_of_removal (removal_of_mark (step.elsewhere id atOuter atInner))] at clears
      rw [Cancellations.leftOver_cons_other atOuter atInner]
      exact (accounted.clear id clears).imp_right fun barren =>
        barren.mono fun _ => step.shows_before

end CancelsOut

/-- When two opposed groups cancel, the outer one goes and the inner one goes or is unturned. -/
theorem Accounted.cancel
    (linked : labels.graph.Linked)
    (tidy : Tidy labels.graph)
    (exact : labels.graph.IsExact labels.options.precision)
    (legible : labels.graph.IsLegible labels.options.precision)
    (accounted : Accounted.{u} labels cancelled state)
    {outer inner : NodeId}
    (step : CancelsOut labels state other outer inner)
    (opposed : Opposed labels outer inner)
    (outerOwn : cancelled.leftOver labels.graph outer = (labels.graph.node outer).transform)
    (innerOwn : cancelled.leftOver labels.graph inner = (labels.graph.node inner).transform)
    (exposes : labels.graph.Exposes state.clears outer inner)
    (outerUntargeted : Untargeted state outer)
    (innerUntargeted : Untargeted state inner)
    (alone :
      ∀ lower, labels.graph.Reaches outer lower → outer ≠ lower → state.shows lower = true →
        labels.graph.Reaches inner lower) :
    Accounted.{u} labels ((outer, inner) :: cancelled) other := by
  have outerInside := linked.forward_of_reaches opposed.reaches opposed.differ
  have exactOuter := exact outer (Nat.lt_trans outerInside.1 outerInside.2)
  refine ⟨?_, ?_, fun node clears => step.clear exactOuter opposed accounted clears, ?_, ?_, ?_⟩
  · intro pair member
    rcases List.mem_cons.mp member with rfl | before
    · exact opposed
    · exact accounted.opposed pair before
  · intro pair member
    rcases List.mem_cons.mp member with rfl | before
    · exact .inl step.gone
    · have apart := Ne.symm (accounted.not_outer before (State.shows_of_none step.outerStays))
      have notInner := Ne.symm (accounted.not_outer before (State.shows_of_none step.innerStays))
      rw [removal_of_mark (step.elsewhere pair.1 apart notInner)]
      exact accounted.gone pair before
  · intro node shows untargeted
    by_cases atInner : node = inner
    · subst atInner
      rw [Cancellations.leftOver_cons_inner]
      rcases step.innerAfter with ⟨_, placed⟩ | ⟨removed, _⟩
      · exact placed
      · simp [State.shows, removed] at shows
    · have apart := step.ne_outer shows
      rw [Cancellations.leftOver_cons_other apart atInner]
      have kept : other.transform labels.graph node = state.transform labels.graph node :=
        transform_of_replacement (by rw [step.elsewhere node apart atInner])
      rw [kept]
      refine accounted.placed node (step.shows_before shows) fun upper push folds recorded => ?_
      have same := step.mark_of_folded folds
      exact untargeted upper push (by rw [removal_of_mark same]; exact folds)
        (by rw [same]; exact recorded)
  · intro upper push folds recorded
    have same := step.mark_of_folded_after folds
    rw [removal_of_mark same] at folds
    rw [same] at recorded
    rw [Cancellations.leftOver_cons_other (outerUntargeted upper push folds recorded)
      (innerUntargeted upper push folds recorded)]
    exact accounted.pushed upper push folds recorded
  · intro node reached shows
    refine Unmoved.cons linked tidy exact legible accounted opposed outerOwn innerOwn exposes
      reached (step.shows_before shows) fun fromOuter => ?_
    exact alone node fromOuter (Ne.symm (step.ne_outer shows)) (step.shows_before shows)

/-- Groups that cancel against each other have kept their own transforms. -/
theorem Accounted.opposed_of_cancels
    (linked : labels.graph.Linked)
    (exact : labels.graph.IsExact labels.options.precision)
    (sound : Sound labels settled state)
    (accounted : Accounted.{u} labels cancelled state)
    (ready : Ready labels settled state id)
    (eligible : isEligible labels state id = true)
    {child : NodeId}
    (seen : child ∈ state.front labels.graph id)
    (cancels : Cancels labels state id child) :
    Opposed labels id child ∧
      cancelled.leftOver labels.graph id = (labels.graph.node id).transform ∧
      cancelled.leftOver labels.graph child = (labels.graph.node child).transform ∧
      state.transform labels.graph child = (labels.graph.node child).transform := by
  obtain ⟨exposes, shows⟩ := (State.mem_front linked).mp seen
  obtain ⟨disposable, present, stays⟩ := isEligible_iff.mp eligible
  have placed :=
    accounted.placed id (State.shows_of_none stays) (sound.untargeted_of_open linked ready.isOpen)
  have childPlaced :=
    accounted.placed child shows (sound.untargeted_of_open linked (ready.open_front linked exposes))
  have exactHere := exact id ready.inside
  have turning := cancels.turning
  have opposite := cancels.opposite
  rw [placed] at turning
  have own : cancelled.leftOver labels.graph id = (labels.graph.node id).transform := by
    rcases cancelled.leftOver_cases labels.graph id with same | same
    · exact same
    · rw [same] at turning
      have turned := Transform.rotation_not_zero (Transform.isExact_unturned exactHere) turning
      rw [show (labels.graph.node id).transform.unturned.rotation = Scene.Vector.zero from rfl,
        Scene.Vector.zero_agrees_zero] at turned
      cases turned
  rw [own] at placed turning
  rw [rotationsCancel, placed, childPlaced] at opposite
  have childOwn : cancelled.leftOver labels.graph child = (labels.graph.node child).transform := by
    rcases cancelled.leftOver_cases labels.graph child with same | same
    · exact same
    · rw [same] at opposite
      have turned := Transform.rotation_not_zero exactHere turning
      simp only [Transform.isExact, Bool.and_eq_true] at exactHere
      rw [Scene.Vector.agrees_zero_of_opposite exactHere.1.2 opposite] at turned
      cases turned
  rw [childOwn] at opposite childPlaced
  exact ⟨⟨exposes.reaches, exposes.differ, present, disposable, cancels.disposable, cancels.bare,
    turning, opposite⟩, own, childOwn, childPlaced⟩

/-- The account after two groups have cancelled, the inner one having been restored before. -/
theorem Accounted.of_cancels
    (linked : labels.graph.Linked)
    (tidy : Tidy labels.graph)
    (exact : labels.graph.IsExact labels.options.precision)
    (legible : labels.graph.IsLegible labels.options.precision)
    (sound : Sound labels settled state)
    (accounted : Accounted.{u} labels cancelled state)
    (ready : Ready labels settled state id)
    (eligible : isEligible labels state id = true)
    {child : NodeId}
    (alone : state.front labels.graph id = [child])
    (cancels : Cancels labels state id child)
    (gone : other.removal id = some .doubleNegative)
    (elsewhere :
      ∀ node, node ≠ id → node ≠ child → other.mark node = (state.restore child).mark node)
    (childAfter :
      (other.removal child = none ∧
          other.transform labels.graph child =
            ((state.restore child).transform labels.graph child).unturned) ∨
        (other.removal child = some .doubleNegative ∧ OnlyTurns labels state child)) :
    Accounted.{u} labels ((id, child) :: cancelled) other := by
  have seen : child ∈ state.front labels.graph id := by simp [alone]
  obtain ⟨exposes, shows⟩ := (State.mem_front linked).mp seen
  obtain ⟨_, _, stays⟩ := isEligible_iff.mp eligible
  have childInside := (linked.forward_of_reaches exposes.reaches exposes.differ).2
  obtain ⟨opposed, own, childOwn, childPlaced⟩ :=
    accounted.opposed_of_cancels linked exact sound ready eligible seen cancels
  -- Everything else is read off the state in which the inner group is restored.
  have childOpen := ready.open_front linked exposes
  have restored := sound.restore linked childOpen childInside shows
  have before := accounted.restore linked sound childInside shows
  obtain ⟨childStays, others, _⟩ := restore_spec linked sound childInside shows
  have openHere := ready.open_restored linked sound exposes shows
  have openChild :
      Open labels (fun node => settled node ∧ node ≠ child) (state.restore child) child :=
    Open.restore linked sound childInside shows childOpen fun _ _ differ => differ
  have untargeted := restored.untargeted_of_open linked openHere
  have childUntargeted := restored.untargeted_of_open linked openChild
  have exposesThen : labels.graph.Exposes (state.restore child).clears id child := by
    refine ⟨exposes.reaches, exposes.differ, fun middle fromId differ toChild notChild => ?_⟩
    rw [clears_of_removal (others middle notChild)]
    exact exposes.between middle fromId differ toChild notChild
  have staysThen : (state.restore child).removal id = none := by
    rw [others id exposes.differ, stays]
  have placedThen :
      (state.restore child).transform labels.graph child =
        (labels.graph.node child).transform := by
    rw [before.placed child (State.shows_of_none childStays) childUntargeted, childOwn]
  have step : CancelsOut labels (state.restore child) other id child := by
    refine ⟨staysThen, childStays, gone, elsewhere, ?_⟩
    rcases childAfter with ⟨staysAfter, placed⟩ | ⟨goneAfter, onlyTurns⟩
    · rw [placedThen] at placed
      exact .inl ⟨staysAfter, placed⟩
    · have turning := onlyTurns.2
      rw [childPlaced] at turning
      exact .inr ⟨goneAfter, Transform.unturned_printsNothing (exact child childInside) turning⟩
  refine before.cancel linked tidy exact legible step opposed own childOwn exposesThen untargeted
    childUntargeted fun lower fromId differ lowerShows => ?_
  by_cases atChild : lower = child
  · rw [atChild]
    exact SceneGraph.Reaches.refl child
  · rw [State.shows, others lower atChild] at lowerShows
    obtain ⟨first, listed, toLower⟩ := sound.front_above linked fromId differ lowerShows
    rw [alone, List.mem_singleton] at listed
    exact listed ▸ toLower

/-- Nothing but the reason of the outer group changes when it goes. -/
theorem mark_outerGone
    (linked : labels.graph.Linked)
    (sound : Sound labels settled state)
    (ready : Ready labels settled state id)
    (eligible : isEligible labels state id = true)
    {child : NodeId}
    (seen : child ∈ state.front labels.graph id) :
    Sound labels (fun node => settled node ∧ node ≠ child) (outerGone labels state id child) ∧
      ∀ node,
        (outerGone labels state id child).mark node =
          if id = node then
            { (state.restore child).mark node with removal := some .doubleNegative }
          else (state.restore child).mark node := by
  obtain ⟨exposes, shows⟩ := (State.mem_front linked).mp seen
  have childInside := (linked.forward_of_reaches exposes.reaches exposes.differ).2
  have restored := sound.restore linked (ready.open_front linked exposes) childInside shows
  have gone := (outerGone_spec linked sound ready eligible seen).1
  exact ⟨gone, State.mark_remove (restored.marked ready.inside) labels .doubleNegative⟩

theorem dropRotation_eq
    (graph : SceneGraph)
    (state : State)
    (id : NodeId) :
    dropRotation graph state id = state.setTransform id (state.transform graph id).unturned :=
  rfl

/-- Every decision can be accounted for. -/
theorem Accounted.carryOut
    (linked : labels.graph.Linked)
    (tidy : Tidy labels.graph)
    (exact : labels.graph.IsExact labels.options.precision)
    (legible : labels.graph.IsLegible labels.options.precision)
    (sound : Sound labels settled state)
    (accounted : Accounted.{u} labels cancelled state)
    (ready : Ready labels settled state id)
    (eligible : isEligible labels state id = true)
    {decision : Verdict labels.graph id}
    (justified : Justified labels state id decision) :
    ∃ more, Accounted.{u} labels more (carryOut labels state id decision) := by
  obtain ⟨_, _, stays⟩ := isEligible_iff.mp eligible
  cases decision with
  | keep => exact ⟨cancelled, accounted⟩
  | empty =>
      exact ⟨cancelled,
        accounted.empty linked sound ready.isOpen ready.inside stays justified⟩
  | cancelBoth child =>
      obtain ⟨alone, cancels, onlyTurns⟩ := justified
      have seen : child.val ∈ state.front labels.graph id := by simp [alone]
      have differ := ((State.mem_front linked).mp seen).1.differ
      obtain ⟨gone, outerMarks⟩ := mark_outerGone linked sound ready eligible seen
      have marks := State.mark_remove (gone.marked child.property.2) labels .doubleNegative
      rw [carryOut_cancelBoth_eq]
      refine ⟨(id, child.val) :: cancelled,
        accounted.of_cancels linked tidy exact legible sound ready eligible alone cancels ?_ ?_
          (.inr ⟨?_, onlyTurns⟩)⟩
      · rw [State.removal, marks, if_neg (Ne.symm differ), outerMarks, if_pos rfl]
      · intro node notOuter notInner
        rw [marks, if_neg (Ne.symm notInner), outerMarks, if_neg (Ne.symm notOuter)]
      · rw [State.removal, marks, if_pos rfl]
  | cancelOuter child =>
      obtain ⟨alone, cancels, _⟩ := justified
      have seen : child.val ∈ state.front labels.graph id := by simp [alone]
      have differ := ((State.mem_front linked).mp seen).1.differ
      obtain ⟨gone, outerMarks⟩ := mark_outerGone linked sound ready eligible seen
      obtain ⟨_, _, childStays, _, _⟩ := outerGone_spec linked sound ready eligible seen
      have marks :=
        State.mark_setTransform (gone.marked child.property.2)
          ((outerGone labels state id child.val).transform labels.graph child.val).unturned
      rw [carryOut_cancelOuter_eq, dropRotation_eq]
      refine ⟨(id, child.val) :: cancelled,
        accounted.of_cancels linked tidy exact legible sound ready eligible alone cancels ?_ ?_
          (.inl ⟨?_, ?_⟩)⟩
      · rw [State.removal, marks, if_neg (Ne.symm differ), outerMarks, if_pos rfl]
      · intro node notOuter notInner
        rw [marks, if_neg (Ne.symm notInner), outerMarks, if_neg (Ne.symm notOuter)]
      · rw [State.removal, marks, if_pos rfl]
        exact childStays
      · have same :
            (outerGone labels state id child.val).transform labels.graph child.val =
              (state.restore child.val).transform labels.graph child.val :=
          transform_of_replacement (by rw [outerMarks, if_neg differ])
        rw [State.transform, marks, if_pos rfl, same]
        rfl
  | fold child =>
      obtain ⟨alone, _⟩ := justified
      have seen : child.val ∈ state.front labels.graph id := by simp [alone]
      obtain ⟨exposes, shows⟩ := (State.mem_front linked).mp seen
      exact ⟨cancelled, accounted.fold linked sound ready.inside stays exposes shows
        (sound.untargeted_of_open linked (ready.open_front linked exposes))⟩
  | sweep => exact ⟨cancelled, accounted.sweep linked sound ready.inside⟩

/-- A decision changes marks in the subtree of its group only. -/
theorem carryOut_outside
    (linked : labels.graph.Linked)
    (sound : Sound labels settled state)
    (ready : Ready labels settled state id)
    (eligible : isEligible labels state id = true)
    {decision : Verdict labels.graph id}
    (justified : Justified labels state id decision)
    {lower : NodeId}
    (apart : ¬ labels.graph.Reaches id lower) :
    (carryOut labels state id decision).mark lower = state.mark lower := by
  cases decision with
  | cancelOuter child =>
      obtain ⟨alone, cancels, _⟩ := justified
      have seen : child.val ∈ state.front labels.graph id := by simp [alone]
      exact (carryOut_cancelOuter linked sound ready eligible seen cancels.group).1 lower apart
  | fold child =>
      obtain ⟨alone, folds⟩ := justified
      exact (carryOut_fold linked sound ready eligible alone folds).1 lower apart
  | keep => exact (carryOut_settles linked sound ready eligible justified rfl).1 lower apart
  | empty => exact (carryOut_settles linked sound ready eligible justified rfl).1 lower apart
  | cancelBoth child =>
      exact (carryOut_settles linked sound ready eligible justified rfl).1 lower apart
  | sweep => exact (carryOut_settles linked sound ready eligible justified rfl).1 lower apart

/-- A root that is removed already is left alone. -/
theorem root_kept_of_moves
    (linked : labels.graph.Linked)
    (gone : labels.graph.isRemoved SceneGraph.root = true)
    {final : State}
    (moves : Moves labels (State.start labels.graph) final) :
    final.removal SceneGraph.root = none := by
  refine moves.preserve (motive := fun state => state.removal SceneGraph.root = none)
    ?_ (fun _ _ kept => kept) ?_
  · rw [State.removal, mark_start]
  · intro settled state id decision sound ready eligible justified kept
    have notRoot : id ≠ SceneGraph.root := by
      rintro rfl
      rw [(isEligible_iff.mp eligible).2.1] at gone
      cases gone
    have apart : ¬ labels.graph.Reaches id SceneGraph.root :=
      fun up => notRoot (linked.eq_root_of_reaches up)
    rw [removal_of_mark (carryOut_outside linked sound ready eligible justified apart)]
    exact kept

/-- Every run can be accounted for. -/
theorem accounted_of_moves
    (linked : labels.graph.Linked)
    (tidy : Tidy labels.graph)
    (exact : labels.graph.IsExact labels.options.precision)
    (legible : labels.graph.IsLegible labels.options.precision)
    {final : State}
    (moves : Moves labels (State.start labels.graph) final) :
    ∃ cancelled, Accounted.{u} labels cancelled final := by
  refine moves.preserve (motive := fun state => ∃ cancelled, Accounted.{u} labels cancelled state)
    ⟨[], accounted_start labels⟩ ?_ ?_
  · rintro state entry ⟨cancelled, accounted⟩
    exact ⟨cancelled, accounted.of_mark rfl⟩
  · rintro settled state id decision sound ready eligible justified ⟨cancelled, accounted⟩
    exact accounted.carryOut linked tidy exact legible sound ready eligible justified

end Decisions

end SceneMarkup.Pruning
