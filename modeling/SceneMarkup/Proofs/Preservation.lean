import Mathlib.Algebra.Group.End
import SceneMarkup.Proofs.Accounting

namespace SceneMarkup.Pruning

open Scene Markup

universe u

/-!
# What pruning does to places

In the pruned tree a node stands where it would stand in the scene without the
cancelled rotations: what is looked through is at rest, and what a folded group
adds is handed down to its target.  Where every cancelled pair turns back, this
is where the node stood.
-/

/-- What the folded node adds is handed down past the node. -/
def Carries (labels : Labels) (state : State) (upper id : NodeId) : Prop :=
  ∃ push,
    state.removal upper = some .transformOverlap ∧ (state.mark upper).pushed = some push ∧
      labels.graph.Reaches upper id ∧ ¬ labels.graph.Reaches push.target id

/-- What the folded node adds is handed down to the node. -/
def CarriesTo (labels : Labels) (state : State) (upper id : NodeId) : Prop :=
  ∃ push,
    state.removal upper = some .transformOverlap ∧ (state.mark upper).pushed = some push ∧
      labels.graph.Reaches upper id ∧ upper ≠ id ∧
        (labels.graph.Reaches push.target id → push.target = id)

section Folds

variable {labels : Labels} {settled : NodeId → Prop} {state : State} {upper id : NodeId}

/-- What shows below a folded node is at or below the target of the fold. -/
theorem Sound.target_above
    (linked : labels.graph.Linked)
    (sound : Sound labels settled state)
    {push : Push}
    (removed : state.removal upper = some .transformOverlap)
    (recorded : (state.mark upper).pushed = some push)
    (reaches : labels.graph.Reaches upper id)
    (differ : upper ≠ id)
    (shows : state.shows id = true) :
    labels.graph.Reaches push.target id := by
  obtain ⟨seen, listed, toLower⟩ := sound.front_above linked reaches differ shows
  rw [(sound.foldedOnto removed recorded).front, List.mem_singleton] at listed
  exact listed ▸ toLower

theorem Carries.reaches
    (carries : Carries labels state upper id) :
    labels.graph.Reaches upper id := by
  obtain ⟨_, _, _, reaches, _⟩ := carries
  exact reaches

/-- Nothing is handed down past a node that shows, unless it was folded itself. -/
theorem Carries.eq_of_shows
    (linked : labels.graph.Linked)
    (sound : Sound labels settled state)
    (carries : Carries labels state upper id)
    (shows : state.shows id = true) :
    upper = id := by
  obtain ⟨push, removed, recorded, reaches, notTarget⟩ := carries
  by_contra differ
  exact notTarget (sound.target_above linked removed recorded reaches differ shows)

/-- Nothing is handed down past a node that stays. -/
theorem not_carries_of_stays
    (linked : labels.graph.Linked)
    (sound : Sound labels settled state)
    (stays : state.removal id = none) :
    ¬ Carries labels state upper id := by
  intro carries
  have same := carries.eq_of_shows linked sound (State.shows_of_none stays)
  obtain ⟨_, folded, _⟩ := carries
  rw [same, stays] at folded
  cases folded

/-- At most one transform is handed down past a node. -/
theorem Carries.unique
    (linked : labels.graph.Linked)
    (sound : Sound labels settled state)
    {other : NodeId}
    (first : Carries labels state upper id)
    (second : Carries labels state other id) :
    upper = other := by
  have lower :
      ∀ {outer inner : NodeId}, Carries labels state outer id → Carries labels state inner id →
        labels.graph.Reaches outer inner → outer = inner := by
    rintro outer inner ⟨push, removed, recorded, _, notTarget⟩ ⟨_, folded, _, reaches, _⟩ above
    refine Carries.eq_of_shows linked sound ⟨push, removed, recorded, above, ?_⟩
      (State.shows_iff.mpr (.inr folded))
    exact fun toInner => notTarget (toInner.trans reaches)
  rcases linked.reaches_comparable first.reaches second.reaches with up | down
  · exact lower first second up
  · exact (lower second first down).symm

/-- What is handed down past a parent is handed down to the child. -/
theorem carriesTo_iff_of_member
    (linked : labels.graph.Linked)
    {holder child : NodeId}
    (member : child ∈ labels.graph.children holder) :
    CarriesTo labels state upper child ↔ Carries labels state upper holder := by
  have edge : labels.graph.Reaches holder child := SceneGraph.Reaches.child member
  have notUp := linked.not_reaches_parent member
  constructor
  · rintro ⟨push, removed, recorded, reaches, differ, only⟩
    refine ⟨push, removed, recorded, linked.reaches_parent reaches differ member, ?_⟩
    intro toHolder
    exact notUp (only (toHolder.trans edge) ▸ toHolder)
  · rintro ⟨push, removed, recorded, reaches, notTarget⟩
    refine ⟨push, removed, recorded, reaches.trans edge, ?_, ?_⟩
    · rintro rfl
      exact notUp reaches
    · intro toChild
      by_contra differ
      exact notTarget (linked.reaches_parent toChild differ member)

/-- Nothing is handed down to the root. -/
theorem not_carriesTo_root
    (linked : labels.graph.Linked) :
    ¬ CarriesTo labels state upper SceneGraph.root := by
  rintro ⟨_, _, _, reaches, differ, _⟩
  exact differ (linked.eq_root_of_reaches reaches)

/-- To a node that shows, something is handed down if a fold moved the node. -/
theorem carriesTo_iff_of_shows
    (linked : labels.graph.Linked)
    (sound : Sound labels settled state)
    (shows : state.shows id = true) :
    CarriesTo labels state upper id ↔
      ∃ push,
        state.removal upper = some .transformOverlap ∧ (state.mark upper).pushed = some push ∧
          push.target = id := by
  constructor
  · rintro ⟨push, removed, recorded, reaches, differ, only⟩
    exact ⟨push, removed, recorded,
      only (sound.target_above linked removed recorded reaches differ shows)⟩
  · rintro ⟨push, removed, recorded, rfl⟩
    have exposes := (sound.foldedOnto removed recorded).exposes linked
    exact ⟨push, removed, recorded, exposes.reaches, exposes.differ, fun _ => rfl⟩

end Folds

section Places

variable {labels : Labels} {settled : NodeId → Prop} {cancelled : Cancellations} {final : State}
  {M : Type u} [Monoid M] {reading : Interpretation M} {node bottom : NodeId}

/-- What a node of the pruned tree adds to where the nodes below it stand. -/
def finalShare
    (labels : Labels)
    (final : State)
    (reading : Interpretation M)
    (node : NodeId) :
    M :=
  (finalTree labels final).share reading (fun id => ((finalTree labels final).node id).transform)
    node

theorem finalShare_of_removed
    (linked : labels.graph.Linked)
    (sound : Sound labels settled final)
    (removed : (final.removal node).isSome = true) :
    finalShare labels final reading node = 1 := by
  refine SceneGraph.share_of_removed ?_
  rw [isRemoved_finalTree linked sound, removed, Bool.or_true]

theorem finalShare_of_stays
    (linked : labels.graph.Linked)
    (sound : Sound labels settled final)
    (reached : labels.graph.Reaches SceneGraph.root node)
    (stays : final.removal node = none) :
    finalShare labels final reading node =
      labels.graph.share reading (final.transform labels.graph) node := by
  have marks : (finalTree labels final).isRemoved node = labels.graph.isRemoved node := by
    rw [isRemoved_finalTree linked sound, stays]
    exact Bool.or_false _
  rw [finalShare, SceneGraph.share, SceneGraph.share, marks,
    transform_finalTree linked reached stays]

/-- What folded nodes hand down to the node, and what they hand down past it. -/
structure HandedDown
    (labels : Labels)
    (state : State)
    (reading : Interpretation M)
    (node : NodeId)
    (incoming outgoing : M) :
    Prop where
  arrives :
    ∀ upper, CarriesTo labels state upper node →
      incoming = reading.motion (state.transform labels.graph upper)
  nothingArrives : (∀ upper, ¬ CarriesTo labels state upper node) → incoming = 1
  leaves :
    ∀ upper, Carries labels state upper node →
      outgoing = reading.motion (state.transform labels.graph upper)
  nothingLeaves : (∀ upper, ¬ Carries labels state upper node) → outgoing = 1

section Balance

variable {incoming outgoing : M}

/-- A node that is looked through adds nothing and takes nothing. -/
theorem HandedDown.of_clears
    (handed : HandedDown labels final reading node incoming outgoing)
    (sound : Sound labels settled final)
    (clears : final.clears node = true) :
    incoming = outgoing := by
  by_cases passes : ∃ upper, Carries labels final upper node
  · obtain ⟨upper, carries⟩ := passes
    rw [handed.leaves upper carries]
    obtain ⟨push, removed, recorded, reaches, notTarget⟩ := carries
    refine handed.arrives upper
      ⟨push, removed, recorded, reaches, ?_, fun up => absurd up notTarget⟩
    rintro rfl
    rcases State.clears_iff.mp clears with known | known
    all_goals
      rw [removed] at known
      cases known
  · rw [handed.nothingLeaves (not_exists.mp passes)]
    refine handed.nothingArrives fun upper carriesTo => passes ⟨upper, ?_⟩
    obtain ⟨push, removed, recorded, reaches, _, only⟩ := carriesTo
    refine ⟨push, removed, recorded, reaches, fun up => ?_⟩
    have stays := (sound.foldedOnto removed recorded).stays
    rw [only up] at stays
    have gone := State.isSome_of_clears clears
    rw [stays] at gone
    cases gone

/-- A node that stays takes what is handed down to it. -/
theorem HandedDown.of_stays
    (handed : HandedDown labels final reading node incoming outgoing)
    (linked : labels.graph.Linked)
    (tidy : Tidy labels.graph)
    (sound : Sound labels settled final)
    (accounted : Accounted.{u} labels cancelled final)
    (reached : labels.graph.Reaches SceneGraph.root node)
    (stays : final.removal node = none)
    (quiet :
      printedTransform labels (cancelled.leftOver labels.graph node) = [] →
        labels.graph.share reading (cancelled.leftOver labels.graph) node = 1) :
    outgoing = 1 ∧
      incoming * labels.graph.share reading (cancelled.leftOver labels.graph) node =
        labels.graph.share reading (final.transform labels.graph) node := by
  have shows := State.shows_of_none stays
  constructor
  · exact handed.nothingLeaves fun _ => not_carries_of_stays linked sound stays
  · by_cases targeted : ∃ upper, CarriesTo labels final upper node
    · obtain ⟨upper, carriesTo⟩ := targeted
      have arrived := handed.arrives upper carriesTo
      obtain ⟨push, removed, recorded, rfl⟩ :=
        (carriesTo_iff_of_shows linked sound shows).mp carriesTo
      have folded := sound.foldedOnto removed recorded
      have exposes := folded.exposes linked
      have later := (linked.forward_of_reaches exposes.reaches exposes.differ).1
      have present := tidy push.target reached (Nat.ne_of_gt (Nat.zero_lt_of_lt later))
      have resting := folded.resting
      rw [accounted.pushed upper push removed recorded] at resting
      rw [quiet resting, mul_one, arrived, SceneGraph.share_of_present present,
        folded.transform_target]
    · have untargeted : Untargeted final node := by
        intro upper push removed recorded same
        exact targeted ⟨upper,
          (carriesTo_iff_of_shows linked sound shows).mpr ⟨push, removed, recorded, same⟩⟩
      rw [handed.nothingArrives (not_exists.mp targeted), one_mul,
        SceneGraph.share_congr (accounted.placed node shows untargeted)]

/-- A folded node is handed nothing and hands down what it adds. -/
theorem HandedDown.of_folded
    (handed : HandedDown labels final reading node incoming outgoing)
    (linked : labels.graph.Linked)
    (sound : Sound labels settled final)
    (accounted : Accounted.{u} labels cancelled final)
    (present : labels.graph.isRemoved node = false)
    (removed : final.removal node = some .transformOverlap) :
    incoming = 1 ∧
      labels.graph.share reading (cancelled.leftOver labels.graph) node = outgoing := by
  have shows := State.shows_iff.mpr (.inr removed)
  obtain ⟨push, folded⟩ := (sound.node node).folded removed
  have exposes := folded.exposes linked
  have notUp : ¬ labels.graph.Reaches push.target node :=
    fun up => exposes.differ (linked.reaches_antisymm exposes.reaches up)
  have untargeted : Untargeted final node := by
    rintro upper other folds recorded rfl
    have stays := (sound.foldedOnto folds recorded).stays
    rw [removed] at stays
    cases stays
  constructor
  · refine handed.nothingArrives fun upper carriesTo => ?_
    obtain ⟨other, folds, recorded, same⟩ :=
      (carriesTo_iff_of_shows linked sound shows).mp carriesTo
    exact untargeted upper other folds recorded same
  · rw [handed.leaves node
        ⟨push, removed, folded.recorded, SceneGraph.Reaches.refl node, notUp⟩,
      SceneGraph.share_of_present present, accounted.placed node shows untargeted]

/-- What the pruned tree adds at a node is what the scene without the cancelled rotations adds,
with what is handed down to the node and without what is handed down past it. -/
theorem HandedDown.balance
    (handed : HandedDown labels final reading node incoming outgoing)
    (linked : labels.graph.Linked)
    (tidy : Tidy labels.graph)
    (exact : labels.graph.IsExact labels.options.precision)
    (legible : labels.graph.IsLegible labels.options.precision)
    (sound : Sound labels settled final)
    (accounted : Accounted.{u} labels cancelled final)
    (rootKept :
      labels.graph.isRemoved SceneGraph.root = true → final.removal SceneGraph.root = none)
    (reached : labels.graph.Reaches SceneGraph.root node)
    (above : labels.graph.Reaches node bottom)
    (bottomStays : final.removal bottom = none) :
    incoming * labels.graph.share reading (cancelled.leftOver labels.graph) node =
      finalShare labels final reading node * outgoing := by
  have quiet :
      printedTransform labels (cancelled.leftOver labels.graph node) = [] →
        labels.graph.share reading (cancelled.leftOver labels.graph) node = 1 :=
    fun nothing => SceneGraph.share_of_rest
      (Cancellations.motion_leftOver reading exact legible (linked.inside_of_reached reached)
        nothing)
  have cleared :
      final.clears node = true →
        incoming * labels.graph.share reading (cancelled.leftOver labels.graph) node =
          outgoing := by
    intro clears
    have differ : node ≠ bottom := by
      rintro rfl
      have removed := State.isSome_of_clears clears
      rw [bottomStays] at removed
      cases removed
    have nothing := (accounted.clear node clears).resolve_right fun barren => by
      have shows := State.shows_of_none bottomStays
      rw [barren bottom above differ] at shows
      cases shows
    rw [quiet nothing, mul_one, handed.of_clears sound clears]
  cases removal : final.removal node with
  | none =>
      obtain ⟨nothing, same⟩ :=
        handed.of_stays linked tidy sound accounted reached removal quiet
      rw [finalShare_of_stays linked sound reached removal, nothing, mul_one, same]
  | some reason =>
      rw [finalShare_of_removed linked sound (by rw [removal]; rfl), one_mul]
      cases reason with
      | empty => exact cleared (State.clears_iff.mpr (.inl removal))
      | doubleNegative => exact cleared (State.clears_iff.mpr (.inr removal))
      | noContent =>
          have swept := sound.swept_below removal above
          rw [bottomStays] at swept
          cases swept
      | transformOverlap =>
          have present : labels.graph.isRemoved node = false := by
            by_cases atRoot : node = SceneGraph.root
            · subst atRoot
              rw [← Bool.not_eq_true]
              intro gone
              rw [rootKept gone] at removal
              cases removal
            · exact tidy node reached atRoot
          obtain ⟨nothing, same⟩ := handed.of_folded linked sound accounted present removal
          rw [nothing, one_mul, same]

end Balance

/-- Something is handed down past each node, and by one folded node at most. -/
theorem exists_carried
    (linked : labels.graph.Linked)
    (sound : Sound labels settled final)
    (reading : Interpretation M) :
    ∃ carried : NodeId → M,
      (∀ node upper, Carries labels final upper node →
        carried node = reading.motion (final.transform labels.graph upper)) ∧
      ∀ node, (∀ upper, ¬ Carries labels final upper node) → carried node = 1 := by
  classical
  refine ⟨fun node =>
    if passes : ∃ upper, Carries labels final upper node then
      reading.motion (final.transform labels.graph passes.choose)
    else 1, ?_, ?_⟩
  · intro node upper carries
    have passes : ∃ upper, Carries labels final upper node := ⟨upper, carries⟩
    have same := Carries.unique linked sound passes.choose_spec carries
    simp only [dif_pos passes, same]
  · intro node nothing
    exact dif_neg (not_exists.mpr nothing)

/-- A node of the pruned tree stands where it would stand without the cancelled rotations. -/
theorem Accounted.placement_final
    (linked : labels.graph.Linked)
    (tidy : Tidy labels.graph)
    (exact : labels.graph.IsExact labels.options.precision)
    (legible : labels.graph.IsLegible labels.options.precision)
    (sound : Sound labels settled final)
    (accounted : Accounted.{u} labels cancelled final)
    (rootKept :
      labels.graph.isRemoved SceneGraph.root = true → final.removal SceneGraph.root = none)
    (reached : labels.graph.Reaches SceneGraph.root bottom)
    (survives : (finalTree labels final).isRemoved bottom = false)
    (reading : Interpretation M) :
    final.removal bottom = none ∧
      (finalTree labels final).placement reading bottom =
        labels.graph.placementWith reading (cancelled.leftOver labels.graph) bottom := by
  have stays : final.removal bottom = none := by
    rw [isRemoved_finalTree linked sound, Bool.or_eq_false_iff] at survives
    simpa using survives.2
  obtain ⟨carried, leaves, nothingLeaves⟩ := exists_carried linked sound reading
  have balance :
      ∀ node incoming,
        labels.graph.Reaches SceneGraph.root node → labels.graph.Reaches node bottom →
          HandedDown labels final reading node incoming (carried node) →
            incoming * labels.graph.share reading (cancelled.leftOver labels.graph) node =
              finalShare labels final reading node * carried node :=
    fun node _ fromRoot above handed =>
      handed.balance linked tidy exact legible sound accounted rootKept fromRoot above stays
  refine ⟨stays, ?_⟩
  have telescoped :
      labels.graph.placementWith reading (cancelled.leftOver labels.graph) bottom =
        ((labels.graph.path bottom).map (finalShare labels final reading)).prod
          * carried bottom := by
    rw [SceneGraph.placementWith_eq]
    refine linked.prod_path_carried reached ?_ ?_
    · have atRoot :=
        balance SceneGraph.root 1 (SceneGraph.Reaches.refl SceneGraph.root) reached
          ⟨fun upper carriesTo => absurd carriesTo (not_carriesTo_root linked), fun _ => rfl,
            leaves SceneGraph.root, nothingLeaves SceneGraph.root⟩
      rwa [one_mul] at atRoot
    · intro holder child member fromRoot above
      refine balance child (carried holder) (fromRoot.trans (SceneGraph.Reaches.child member)) above
        ⟨fun upper carriesTo => ?_, fun nothing => ?_, leaves child, nothingLeaves child⟩
      · exact leaves holder upper ((carriesTo_iff_of_member linked member).mp carriesTo)
      · exact nothingLeaves holder fun upper carries =>
          nothing upper ((carriesTo_iff_of_member linked member).mpr carries)
  have past : carried bottom = 1 :=
    nothingLeaves bottom fun _ => not_carries_of_stays linked sound stays
  rw [telescoped, past, mul_one]
  exact linked.placement_commit reading (planOf labels.graph final) reached survives

/-- Above a node that stays, the outer of two cancelled groups is gone for its rotation. -/
theorem Accounted.negated_above
    (sound : Sound labels settled final)
    (accounted : Accounted.{u} labels cancelled final)
    (stays : final.removal bottom = none)
    {pair : NodeId × NodeId}
    (member : pair ∈ cancelled)
    (above : labels.graph.Reaches pair.1 bottom) :
    final.removal pair.1 = some .doubleNegative := by
  refine (accounted.gone pair member).resolve_right fun swept => ?_
  have gone := sound.swept_below swept above
  rw [stays] at gone
  cases gone

end Places

/--
A survivor of a plan stands where it would stand in the scene without the
rotations that the plan cancels.  Each of them belongs to a pair of opposed groups
of which the outer one goes for its rotation; where the pairs above it turn back,
the survivor stands where it stood.
-/
theorem plan_keeps_placement
    {graph : SceneGraph}
    {index : InstanceIndex}
    {options : Options}
    {decided : Plan}
    (linked : graph.Linked)
    (tidy : Tidy graph)
    (exact : graph.IsExact options.precision)
    (legible : graph.IsLegible options.precision)
    (found : (plan (Labels.ofGraph graph index options)).result = .ok decided) :
    ∃ cancelled : Cancellations,
      (∀ pair ∈ cancelled,
        Opposed (Labels.ofGraph graph index options) pair.1 pair.2 ∧
          (pair.1, .doubleNegative) ∈ decided.removals) ∧
      ∀ {M : Type u} [Monoid M] (reading : Interpretation M) (id : NodeId),
        graph.Reaches SceneGraph.root id → (commit graph decided).isRemoved id = false →
          (commit graph decided).placement reading id =
              graph.placementWith reading (cancelled.leftOver graph) id ∧
            ((∀ pair ∈ cancelled, graph.Reaches pair.2 id →
                TurnsBack reading graph pair.1 pair.2) →
              (commit graph decided).placement reading id = graph.placement reading id) := by
  have labelsLinked : (Labels.ofGraph graph index options).graph.Linked := linked
  obtain ⟨final, rfl, moves, sound⟩ := plan_spec labelsLinked found
  obtain ⟨all, accounted⟩ := accounted_of_moves.{u} labelsLinked tidy exact legible moves
  -- Pairs that were swept later have no survivors below them.
  let cancelled : Cancellations :=
    all.filter fun pair => decide (final.removal pair.1 = some .doubleNegative)
  have keeps :
      ∀ pair ∈ all, ∀ id, final.removal id = none → graph.Reaches pair.1 id →
        pair ∈ cancelled := by
    intro pair member id stays above
    refine List.mem_filter.mpr ⟨member, decide_eq_true ?_⟩
    exact accounted.negated_above sound stays member above
  refine ⟨cancelled, ?_, ?_⟩
  · intro pair member
    obtain ⟨listed, negated⟩ := List.mem_filter.mp member
    have removed := of_decide_eq_true negated
    refine ⟨accounted.opposed pair listed, List.mem_filterMap.mpr ⟨pair.1, ?_, ?_⟩⟩
    · exact (sound.ordered.listed pair.1).mpr (by rw [removed]; rfl)
    · rw [removed]
      rfl
  · intro M _ reading id reached survives
    obtain ⟨stays, placed⟩ :=
      accounted.placement_final labelsLinked tidy exact legible sound
        (fun gone => root_kept_of_moves labelsLinked gone moves) reached survives reading
    have leftOvers :
        graph.placementWith reading (all.leftOver graph) id =
          graph.placementWith reading (cancelled.leftOver graph) id := by
      refine SceneGraph.Linked.placementWith_congr linked fun upper above => ?_
      refine (Cancellations.leftOver_filter fun pair member involved => ?_).symm
      have outerAbove : graph.Reaches pair.1 upper := by
        rcases involved with rfl | rfl
        · exact SceneGraph.Reaches.refl pair.1
        · exact (accounted.opposed pair member).reaches
      exact (List.mem_filter.mp (keeps pair member id stays (outerAbove.trans above))).2
    refine ⟨placed.trans leftOvers, fun back => placed.trans ?_⟩
    have shows := State.shows_of_none stays
    refine accounted.unmoved id reached shows reading fun pair member below => ?_
    exact back pair
      (keeps pair member id stays ((accounted.opposed pair member).reaches.trans below)) below

/-!
### Quarter turns

Angles are read as quarter turns by their sign, and shifts as steps on a grid.
-/

/-- A point of the grid. -/
abbrev GridPoint := Int × Int × Int

/-- The sign of a finite double. -/
def signOf (x : Float) : Int :=
  match Decimal.unpacked x with
  | .finite .positive .. => 1
  | .finite .negative .. => -1
  | _ => 0

theorem signOf_neg
    (x : Float) :
    signOf (-x) = -signOf x := by
  rw [signOf, signOf, Decimal.unpacked_neg]
  cases Decimal.unpacked x with
  | notANumber => rfl
  | infinity sign => rfl
  | zero sign => rfl
  | finite sign => cases sign <;> rfl

theorem signOf_zero
    {x : Float}
    (zero : Float.beq x 0.0 = true) :
    signOf x = 0 := by
  obtain ⟨sign, read⟩ := Decimal.beq_zero_iff.mp zero
  rw [signOf, read]

/-- A quarter turn about the first axis. -/
def quarterX : Equiv.Perm GridPoint where
  toFun point := (point.1, -point.2.2, point.2.1)
  invFun point := (point.1, point.2.2, -point.2.1)
  left_inv point := by simp
  right_inv point := by simp

/-- A quarter turn about the second axis. -/
def quarterY : Equiv.Perm GridPoint where
  toFun point := (point.2.2, point.2.1, -point.1)
  invFun point := (-point.2.2, point.2.1, point.1)
  left_inv point := by simp
  right_inv point := by simp

/-- A quarter turn about the third axis. -/
def quarterZ : Equiv.Perm GridPoint where
  toFun point := (-point.2.1, point.1, point.2.2)
  invFun point := (point.2.1, -point.1, point.2.2)
  left_inv point := by simp
  right_inv point := by simp

section Quarters

variable (quarter : Equiv.Perm GridPoint)

theorem quarter_rest
    (angle : Float)
    (zero : Float.beq angle 0.0 = true) :
    quarter ^ signOf angle = 1 := by
  rw [signOf_zero zero, zpow_zero]

theorem quarter_back
    (angle : Float) :
    quarter ^ signOf angle * quarter ^ signOf (-angle) = 1 := by
  rw [signOf_neg, zpow_neg, mul_inv_cancel]

end Quarters

/-- Transforms read as motions of the grid, without their scales. -/
def gridReading : Interpretation (Equiv.Perm GridPoint) where
  shift v := Equiv.addLeft (signOf v.x, signOf v.y, signOf v.z)
  turnX angle := quarterX ^ signOf angle
  turnY angle := quarterY ^ signOf angle
  turnZ angle := quarterZ ^ signOf angle
  stretch _ := 1
  shift_rest := by
    intro v rest
    simp only [Scene.Vector.agrees, Scene.Vector.zero, Bool.and_eq_true] at rest
    obtain ⟨⟨restX, restY⟩, restZ⟩ := rest
    rw [signOf_zero restX, signOf_zero restY, signOf_zero restZ]
    exact Equiv.addLeft_zero
  turnX_rest := quarter_rest quarterX
  turnY_rest := quarter_rest quarterY
  turnZ_rest := quarter_rest quarterZ
  turnX_back := quarter_back quarterX
  turnY_back := quarter_back quarterY
  turnZ_back := quarter_back quarterZ
  stretch_rest _ _ := rfl

/-- A group that turns about the first axis, and one in it that turns back and holds two meshes. -/
def opposedScene (inner : Transform) : SceneGraph :=
  ((((SceneGraph.ofRoot "Scene").add 0
    { name := "Outer", transform := { Transform.identity with rotation := ⟨1.5, 0.0, 0.0⟩ } }).add 1
    { name := "Inner", transform := { inner with rotation := ⟨-1.5, 0.0, 0.0⟩ } }).add 2
    { name := "Left", kind := .mesh }).add 2 { name := "Right", kind := .mesh }

theorem linked_opposedScene
    (inner : Transform) :
    (opposedScene inner).Linked ∧ (opposedScene inner).Untouched := by
  constructor
  · refine ((((SceneGraph.linked_ofRoot "Scene").add (by decide) _).add (by decide) _).add
      ?_ _).add ?_ _
    all_goals
      simp only [SceneGraph.size_add]
      decide
  · exact ((((SceneGraph.untouched_ofRoot "Scene").add _ _).add _ _).add _ _).add _ _

/-- Twice as large. -/
def doubled : Transform :=
  { Transform.identity with scale := ⟨2.0, 2.0, 2.0⟩ }

/-- One step along the second axis. -/
def aside : Transform :=
  { Transform.identity with position := ⟨0.0, 1.0, 0.0⟩ }

/-- The outer group goes, the inner one is scaled only, and the meshes stay where they were. -/
theorem plan_keeps_placement_doubled :
    let scene := opposedScene doubled
    let options : Options := { aggressive := true }
    let decided : Plan := ⟨[(1, .doubleNegative), (0, .empty)], [(2, doubled)]⟩
    scene.Linked ∧ Tidy scene ∧ scene.IsExact options.precision ∧
      scene.IsLegible options.precision ∧
      (plan (Labels.ofGraph scene {} options)).result = .ok decided ∧
      (commit scene decided).placement gridReading 3 = scene.placement gridReading 3 := by
  intro scene options decided
  obtain ⟨linked, untouched⟩ := linked_opposedScene doubled
  have tidy := tidy_of_untouched untouched
  have exact : scene.IsExact options.precision := by decide +kernel
  have legible : scene.IsLegible options.precision := by decide +kernel
  have found : (plan (Labels.ofGraph scene {} options)).result = .ok decided := by
    decide +kernel
  refine ⟨linked, tidy, exact, legible, found, ?_⟩
  obtain ⟨cancelled, opposed, placed⟩ := plan_keeps_placement linked tidy exact legible found
  have reached : scene.Reaches SceneGraph.root 3 := linked.mem_traverse.mp (by decide +kernel)
  refine (placed gridReading 3 reached (by decide +kernel)).2 ?_
  rintro ⟨outer, inner⟩ member _
  obtain ⟨opposite, removed⟩ := opposed _ member
  -- Only the first two groups turn against each other.
  have isOuter : outer = 1 := by simpa [decided] using removed
  subst isOuter
  have isInner : inner = 2 := by
    have below : inner ∈ scene.traverse 1 := linked.mem_traverse.mpr opposite.reaches
    have listed : scene.traverse 1 = [1, 2, 3, 4] := by decide +kernel
    have group := (isDisposable_iff.mp opposite.innerDisposable).2.1
    have differ := opposite.differ
    rw [listed] at below
    simp only [List.mem_cons, List.not_mem_nil, or_false] at below
    rcases below with rfl | rfl | rfl | rfl
    · exact absurd rfl differ
    · rfl
    · cases group
    · cases group
  subst isInner
  refine turnsBack_of_rest (by decide +kernel) ?_
  show gridReading.turn ⟨1.5, 0.0, 0.0⟩ * gridReading.turn ⟨-1.5, 0.0, 0.0⟩ = 1
  have still : Float.beq 0.0 0.0 = true := by decide +kernel
  rw [Interpretation.turn, Interpretation.turn, gridReading.turnY_rest _ still,
    gridReading.turnZ_rest _ still, mul_one, mul_one, mul_one, mul_one, gridReading.turnX_back]

/-- The meshes are carried to another place when the inner group is also shifted. -/
theorem placement_lost_aside :
    let scene := opposedScene aside
    let decided : Plan := ⟨[(1, .doubleNegative), (0, .empty)], [(2, aside)]⟩
    (scene.Linked ∧ Tidy scene ∧ scene.IsExact 2) ∧
      (plan (Labels.ofGraph scene {} { aggressive := true })).result = .ok decided ∧
      (commit scene decided).isRemoved 3 = false ∧
      (scene.placement gridReading 3) (0, 0, 0) = (0, 0, 1) ∧
      ((commit scene decided).placement gridReading 3) (0, 0, 0) = (0, 1, 0) := by
  intro scene decided
  obtain ⟨linked, untouched⟩ := linked_opposedScene aside
  refine ⟨⟨linked, tidy_of_untouched untouched, ?_⟩, ?_, ?_, ?_, ?_⟩
  all_goals decide +kernel

/-- A step so short that its square vanishes. -/
def speck : Float :=
  1.0 / Decimal.scaleFactor 170

/-- A group that makes such a step with two meshes. -/
def speckScene : SceneGraph :=
  (((SceneGraph.ofRoot "Scene").add 0
    { name := "Speck", transform := { Transform.identity with position := ⟨speck, 0.0, 0.0⟩ } }).add
    1 { name := "Left", kind := .mesh }).add 1 { name := "Right", kind := .mesh }

/-- A shift is lost with its group when its length is rounded to zero. -/
theorem placement_lost_speck :
    let decided : Plan := ⟨[(1, .empty), (0, .empty)], []⟩
    speckScene.IsExact 170 ∧
      (plan (Labels.ofGraph speckScene {} { precision := 170 })).result = .ok decided ∧
      (commit speckScene decided).isRemoved 2 = false ∧
      (speckScene.placement gridReading 2) (0, 0, 0) = (1, 0, 0) ∧
      ((commit speckScene decided).placement gridReading 2) (0, 0, 0) = (0, 0, 0) := by
  intro decided
  refine ⟨?_, ?_, ?_, ?_, ?_⟩
  all_goals decide +kernel

end SceneMarkup.Pruning
