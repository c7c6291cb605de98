import SceneMarkup.Proofs.Building
import SceneMarkup.Proofs.FixedPoint

namespace SceneMarkup.Pruning

open Scene Markup

/-!
# What a run may touch

Whatever is marked was met without a bone and is needed by no clip and no morph
targets; what is removed is a group on top of that.  A root that an earlier plan
removed keeps its place, so it is asked to be present; other removed nodes are out
of the tree.  Every operation on the marks asks for this at the nodes that it changes,
the target of a push included, since undoing the push writes there once more.
-/

/-- The run may change what is decided about the node. -/
structure Touchable (labels : Labels) (id : NodeId) : Prop where
  asked : labels.options.keepGroups = false
  met : labels.graph.ReachesBoneless SceneGraph.root id
  standing : id = SceneGraph.root → labels.graph.isRemoved id = false
  idle : labels.isRelevant id = false

/-- What is decided about the node was decided about one that may be touched. -/
structure GuardedMark (labels : Labels) (id : NodeId) (mark : Mark) : Prop where
  removed :
    mark.removal.isSome = true →
      Touchable labels id ∧ (labels.graph.node id).kind.isGroup = true
  replaced : mark.replacement.isSome = true → Touchable labels id
  pushed : ∀ push, mark.pushed = some push → Touchable labels push.target

/-- All marks are guarded. -/
def Guarded (labels : Labels) (state : State) : Prop :=
  ∀ id, GuardedMark labels id (state.mark id)

section Operations

variable {labels : Labels} {state : State} {id : NodeId}

/-- A change of one mark leaves another as it is or is made in it. -/
theorem State.mark_modify_cases
    (state : State)
    (id : NodeId)
    (change : Mark → Mark)
    (other : NodeId) :
    (state.modify id change).mark other = state.mark other ∨
      id = other ∧ (state.modify id change).mark other = change (state.mark other) := by
  by_cases inside : id < state.marks.size
  · rw [State.mark_modify inside]
    by_cases here : id = other
    · exact .inr ⟨here, if_pos here⟩
    · exact .inl (if_neg here)
  · refine .inl ?_
    simp only [State.modify, State.mark, Array.getD_eq_getD_getElem?, Array.getElem?_modify]
    split
    next here =>
      subst here
      simp [Nat.le_of_not_lt inside]
    next => rfl

/-- At the start nothing is decided, so that every mark is guarded. -/
theorem guarded_start
    (labels : Labels) :
    Guarded labels (State.start labels.graph) := by
  intro id
  rw [mark_start]
  exact ⟨by simp, by simp, by simp⟩

/-- A change that keeps one mark guarded keeps them all. -/
theorem Guarded.modify
    (guarded : Guarded labels state)
    {change : Mark → Mark}
    (kept : ∀ mark, GuardedMark labels id mark → GuardedMark labels id (change mark)) :
    Guarded labels (state.modify id change) := by
  intro other
  rcases state.mark_modify_cases id change other with same | ⟨here, changed⟩
  · rw [same]
    exact guarded other
  · rw [changed]
    exact here ▸ kept _ (here ▸ guarded other)

/-- A touchable group may be given a reason. -/
theorem Guarded.setRemoval
    (guarded : Guarded labels state)
    (touchable : Touchable labels id)
    (group : (labels.graph.node id).kind.isGroup = true)
    (reason : Removal) :
    Guarded labels (state.setRemoval id reason) := by
  have changed :
      Guarded labels (state.modify id fun mark => { mark with removal := some reason }) :=
    guarded.modify fun mark known => ⟨fun _ => ⟨touchable, group⟩, known.replaced, known.pushed⟩
  exact changed

/-- A touchable group may be removed. -/
theorem Guarded.remove
    (guarded : Guarded labels state)
    (touchable : Touchable labels id)
    (group : (labels.graph.node id).kind.isGroup = true)
    (reason : Removal) :
    Guarded labels (state.remove labels id reason) := by
  have reported : ∀ message, Guarded labels (state.report message) := fun _ => guarded
  exact (reported _).setRemoval touchable group reason

/-- A touchable node may be moved. -/
theorem Guarded.setTransform
    (guarded : Guarded labels state)
    (touchable : Touchable labels id)
    (transform : Transform) :
    Guarded labels (state.setTransform id transform) :=
  guarded.modify fun _ known => ⟨known.removed, fun _ => touchable, known.pushed⟩

/-- Taking a decision back needs no leave. -/
theorem Guarded.restore
    (guarded : Guarded labels state)
    (id : NodeId) :
    Guarded labels (state.restore id) := by
  have undone : Guarded labels (state.undoPush id) := by
    unfold State.undoPush
    cases pushed : (state.mark id).pushed with
    | none => exact guarded
    | some push =>
        -- Undoing the push writes at its target, which was guarded when the push was recorded.
        have target := (guarded id).pushed push pushed
        have forgotten :
            Guarded labels (state.modify id fun mark => { mark with pushed := none }) :=
          guarded.modify fun _ known => ⟨known.removed, known.replaced, by simp⟩
        exact forgotten.modify fun _ known => ⟨known.removed, fun _ => target, known.pushed⟩
  unfold State.restore
  simp only
  split
  next =>
    have stays :
        Guarded labels ((state.undoPush id).modify id fun mark => { mark with removal := none }) :=
      undone.modify fun _ known => ⟨by simp, known.replaced, known.pushed⟩
    exact stays
  next => exact undone

/-- A touchable group may be folded into a touchable child. -/
theorem Guarded.foldInto
    (guarded : Guarded labels state)
    (touchable : Touchable labels id)
    (group : (labels.graph.node id).kind.isGroup = true)
    {child : NodeId}
    (target : Touchable labels child) :
    Guarded labels (foldInto labels state id child) := by
  have moved := guarded.setTransform target (state.transform labels.graph id)
  have recorded :
      Guarded labels
        ((state.setTransform child (state.transform labels.graph id)).modify id fun mark =>
          { mark with pushed := some ⟨child, (state.mark child).replacement⟩ }) := by
    refine moved.modify fun _ known => ⟨known.removed, known.replaced, ?_⟩
    rintro push ⟨⟩
    exact target
  exact recorded.remove touchable group _

/-- A subtree of touchable groups may be swept. -/
theorem Guarded.sweepSubtree
    (guarded : Guarded labels state)
    (below :
      ∀ lower ∈ labels.graph.traverse id,
        Touchable labels lower ∧ (labels.graph.node lower).kind.isGroup = true) :
    Guarded labels (sweepSubtree labels state id) := by
  unfold Pruning.sweepSubtree
  refine foldl_steps
    (motive := fun _ (sofar : State) => Guarded labels sofar)
    (labels.graph.traverse id) guarded ?_
  intro done node rest sofar split known
  obtain ⟨touchable, group⟩ := below node (by rw [split]; simp)
  split
  next => exact known.remove touchable group _
  next => exact known.setRemoval touchable group _

end Operations

section Decisions

variable {labels : Labels} {settled : NodeId → Prop} {state : State} {id : NodeId}

/-- An eligible group that the run has met may be touched. -/
theorem Ready.touchable
    (ready : Ready labels settled state id)
    (eligible : isEligible labels state id = true) :
    Touchable labels id := by
  obtain ⟨disposable, present, _⟩ := isEligible_iff.mp eligible
  obtain ⟨asked, _, idle⟩ := isDisposable_iff.mp disposable
  exact ⟨asked, ready.met, fun _ => present, idle⟩

/-- A child in front of the group that is looked at may be touched if nothing else needs it. -/
theorem Ready.touchable_front
    (ready : Ready labels settled state id)
    (linked : labels.graph.Linked)
    (sound : Sound labels settled state)
    (eligible : isEligible labels state id = true)
    {child : NodeId}
    (seen : child ∈ state.front labels.graph id)
    (notBone : (labels.graph.node child).kind.isBone = false)
    (idle : labels.isRelevant child = false) :
    Touchable labels child := by
  have exposes := ((State.mem_front linked).mp seen).1
  have met := ready.met_front linked sound eligible exposes notBone
  refine ⟨(ready.touchable eligible).asked, met, ?_, idle⟩
  rintro rfl
  exact absurd (linked.eq_root_of_reaches exposes.reaches) exposes.differ

/-- Everything below a group without content may be touched with it. -/
theorem Ready.touchable_below
    (ready : Ready labels settled state id)
    (linked : labels.graph.Linked)
    (eligible : isEligible labels state id = true)
    (nothing : hasContent labels id = false)
    {lower : NodeId}
    (reaches : labels.graph.Reaches id lower) :
    Touchable labels lower ∧ (labels.graph.node lower).kind.isGroup = true := by
  have here := ready.touchable eligible
  have disposable := (isEligible_iff.mp eligible).1
  have below : ∀ middle, labels.graph.Reaches id middle → isDisposable labels middle = true :=
    fun middle => disposable_of_no_content linked disposable nothing
  obtain ⟨_, group, idle⟩ := isDisposable_iff.mp (below lower reaches)
  have met : labels.graph.ReachesBoneless SceneGraph.root lower := by
    refine ⟨ready.met.reaches.trans reaches, fun middle fromRoot toLower => ?_⟩
    rcases linked.reaches_comparable toLower reaches with up | down
    · exact ready.met.boneless middle fromRoot up
    · exact not_bone_of_group (isDisposable_iff.mp (below middle down)).2.1
  refine ⟨⟨here.asked, met, fun atRoot => ?_, idle⟩, group⟩
  by_cases same : id = lower
  · exact same ▸ (isEligible_iff.mp eligible).2.1
  · subst atRoot
    exact absurd (linked.eq_root_of_reaches reaches) same

/-- Whatever is decided for an eligible node keeps all marks guarded. -/
theorem Guarded.carryOut
    (linked : labels.graph.Linked)
    (guarded : Guarded labels state)
    (sound : Sound labels settled state)
    (ready : Ready labels settled state id)
    (eligible : isEligible labels state id = true)
    {decision : Verdict labels.graph id}
    (justified : Justified labels state id decision) :
    Guarded labels (carryOut labels state id decision) := by
  have here := ready.touchable eligible
  have group := (isDisposable_iff.mp (isEligible_iff.mp eligible).1).2.1
  have cancelled :
      ∀ child : NodeId, state.front labels.graph id = [child] → Cancels labels state id child →
        Touchable labels child := by
    intro child alone cancels
    obtain ⟨_, _, idle⟩ := isDisposable_iff.mp cancels.disposable
    exact ready.touchable_front linked sound eligible (by simp [alone])
      (not_bone_of_group cancels.group) idle
  cases decision with
  | keep => exact guarded
  | empty => exact guarded.remove here group _
  | cancelBoth child =>
      obtain ⟨alone, cancels, _⟩ := justified
      have outer := (guarded.restore child.val).remove here group .doubleNegative
      exact outer.remove (cancelled child.val alone cancels) cancels.group _
  | cancelOuter child =>
      obtain ⟨alone, cancels, _⟩ := justified
      have outer := (guarded.restore child.val).remove here group .doubleNegative
      exact outer.setTransform (cancelled child.val alone cancels) _
  | fold child =>
      obtain ⟨alone, folds⟩ := justified
      have target :=
        ready.touchable_front linked sound eligible (by simp [alone]) folds.notBone
          folds.notRelevant
      exact guarded.foldInto here group target
  | sweep =>
      refine guarded.sweepSubtree fun lower listed => ?_
      exact ready.touchable_below linked eligible justified.2 (linked.mem_traverse.mp listed)

/-- All marks are guarded wherever a run can lead. -/
theorem Guarded.of_moves
    (linked : labels.graph.Linked)
    {final : State}
    (moves : Moves labels (State.start labels.graph) final) :
    Guarded labels final := by
  refine moves.preserve (guarded_start labels) (fun _ _ guarded => guarded) ?_
  intro settled state id decision sound ready eligible justified guarded
  exact guarded.carryOut linked sound ready eligible justified

end Decisions

/-- Nothing needs the node to stay as it is: it is part of the tree, no clip drives it, it blends
no shapes, and it does not belong to a skeleton. -/
structure Disposable (graph : SceneGraph) (id : NodeId) : Prop where
  reached : graph.Reaches SceneGraph.root id
  present : graph.isRemoved id = false
  undriven : ∀ clip ∈ graph.clips, id ∉ clip.targets
  shapeless : (graph.node id).morphTargets = none
  outside : ∀ upper, graph.Reaches upper id → (graph.node upper).kind ≠ .bone

/-- What a run may touch is disposable in the scene. -/
theorem Touchable.disposable
    {graph : SceneGraph}
    (linked : graph.Linked)
    (tidy : Tidy graph)
    {index : InstanceIndex}
    {options : Options}
    {id : NodeId}
    (touchable : Touchable (Labels.ofGraph graph index options) id) :
    Disposable graph id := by
  obtain ⟨undriven, shapeless⟩ := isRelevant_eq_false_iff.mp touchable.idle
  obtain ⟨reached, free⟩ := linked.met_iff.mp touchable.met
  have present : graph.isRemoved id = false := by
    by_cases atRoot : id = SceneGraph.root
    · exact touchable.standing atRoot
    · exact tidy id reached atRoot
  exact ⟨reached, present, undriven, shapeless,
    fun upper reaches => isBone_eq_false_iff.mp (free upper reaches)⟩

/-- Groups are of two kinds. -/
theorem kind_of_isGroup
    {kind : NodeKind}
    (group : kind.isGroup = true) :
    kind = .group ∨ kind = .object3D := by
  cases kind <;> simp_all [NodeKind.isGroup]

/-- Entries picked for some of the ids, in their order, keep the ids apart. -/
theorem nodup_picked
    {ids : List NodeId}
    (nodup : ids.Nodup)
    {pick : NodeId → Option (NodeId × α)}
    (own : ∀ id entry, pick id = some entry → entry.1 = id) :
    ((ids.filterMap pick).map (·.1)).Nodup := by
  have picked : (ids.filterMap pick).map (·.1) = ids.filter fun id => (pick id).isSome := by
    rw [List.map_filterMap, ← List.filterMap_eq_filter]
    refine List.filterMap_congr fun id _ => ?_
    cases found : pick id with
    | none => simp [Option.guard, found]
    | some entry => simp [Option.guard, found, own id entry found]
  rw [picked]
  exact nodup.filter _

/-- The plan lists a node with the reason that the run ended with. -/
theorem removal_of_mem_planOf
    {graph : SceneGraph}
    {final : State}
    {entry : NodeId × Removal}
    (listed : entry ∈ (planOf graph final).removals) :
    final.removal entry.1 = some entry.2 := by
  obtain ⟨id, _, found⟩ := List.mem_filterMap.mp listed
  obtain ⟨reason, removed, rfl⟩ := Option.map_eq_some_iff.mp found
  exact removed

/--
Only disposable groups are touched: a plan lists each node once, as one that goes
or as one that moves; what goes is a group, and neither what goes nor what moves is
removed before, driven by a clip, blending shapes, or part of a skeleton.  What
moves is still there when the plan is committed, and kept groups are left alone.
-/
theorem plan_touches_only_disposable
    {graph : SceneGraph}
    (built : Built graph)
    (index : InstanceIndex)
    (options : Options)
    {decided : Plan}
    (found : (plan (Labels.ofGraph graph index options)).result = .ok decided) :
    (decided.removals.map (·.1)).Nodup ∧
      (decided.transforms.map (·.1)).Nodup ∧
      (decided.removals.map (·.1)).Disjoint (decided.transforms.map (·.1)) ∧
      (∀ entry ∈ decided.removals,
        ((graph.node entry.1).kind = .group ∨ (graph.node entry.1).kind = .object3D) ∧
          Disposable graph entry.1) ∧
      (∀ entry ∈ decided.transforms,
        (commit graph decided).isRemoved entry.1 = false ∧ Disposable graph entry.1) ∧
      (options.keepGroups = true → decided = ⟨[], []⟩) := by
  have linked : (Labels.ofGraph graph index options).graph.Linked := built.linked
  obtain ⟨final, rfl, moves, sound⟩ := plan_spec linked found
  have guarded := Guarded.of_moves linked moves
  -- An entry of the plan is read off a mark, so the guard of that mark speaks about it.
  have gone :
      ∀ entry ∈ (planOf graph final).removals,
        Touchable (Labels.ofGraph graph index options) entry.1 ∧
          (graph.node entry.1).kind.isGroup = true := by
    intro entry listed
    exact (guarded entry.1).removed (by rw [← State.removal, removal_of_mem_planOf listed]; rfl)
  have moved :
      ∀ entry ∈ (planOf graph final).transforms,
        final.removal entry.1 = none ∧ Touchable (Labels.ofGraph graph index options) entry.1 := by
    intro entry listed
    obtain ⟨_, stays, replaced⟩ := (mem_transforms_planOf linked).mp listed
    exact ⟨stays, (guarded entry.1).replaced (by rw [replaced]; rfl)⟩
  refine ⟨?_, ?_, ?_, ?_, ?_, ?_⟩
  · refine nodup_picked sound.ordered.nodup fun id entry picked => ?_
    obtain ⟨reason, _, rfl⟩ := Option.map_eq_some_iff.mp picked
    rfl
  · refine nodup_picked (linked.traverse_nodup _) fun id entry picked => ?_
    split at picked
    next =>
      obtain ⟨transform, _, rfl⟩ := Option.map_eq_some_iff.mp picked
      rfl
    next => cases picked
  · intro id inRemovals inTransforms
    obtain ⟨first, listed, rfl⟩ := List.mem_map.mp inRemovals
    obtain ⟨second, alsoListed, same⟩ := List.mem_map.mp inTransforms
    have stays := (moved second alsoListed).1
    rw [same, removal_of_mem_planOf listed] at stays
    cases stays
  · intro entry listed
    obtain ⟨touchable, group⟩ := gone entry listed
    exact ⟨kind_of_isGroup group, touchable.disposable linked built.tidy⟩
  · intro entry listed
    obtain ⟨stays, touchable⟩ := moved entry listed
    have disposable : Disposable graph entry.1 := touchable.disposable linked built.tidy
    refine ⟨(isRemoved_finalTree linked sound entry.1).trans ?_, disposable⟩
    rw [stays]
    exact (Bool.or_false _).trans disposable.present
  · intro keep
    have untouched : ∀ id, ¬ Touchable (Labels.ofGraph graph index options) id := by
      intro id touchable
      have asked : options.keepGroups = false := touchable.asked
      rw [keep] at asked
      cases asked
    have noRemovals : (planOf graph final).removals = [] :=
      List.eq_nil_iff_forall_not_mem.mpr fun entry listed => untouched _ (gone entry listed).1
    have noTransforms : (planOf graph final).transforms = [] :=
      List.eq_nil_iff_forall_not_mem.mpr fun entry listed => untouched _ (moved entry listed).2
    exact congrArg₂ Plan.mk noRemovals noTransforms

/-- A group that shifts its mesh, a group that a clip drives, and a hip with a pouch that does
nothing. -/
def drivenScene : SceneGraph :=
  { (((((((SceneGraph.ofRoot "Scene").add 0 { name := "Shift", transform := oneStep }).add 1
      { name := "Box", kind := .mesh }).add 0 { name := "Door" }).add 3
      { name := "Knob", kind := .mesh }).add 0 { name := "Hip", kind := .bone }).add 5
      { name := "Pouch" }).add 6 { name := "Coin", kind := .mesh } with
    clips := [{ name := "Open", targets := [3] }] }

theorem built_drivenScene : Built drivenScene :=
  ((((((((Built.ofRoot "Scene").add (by decide) _).add (by decide) _).add (by decide) _).add
    (by decide) _).add (by decide) _).add (by decide) _).add (by decide) _).edit
    ⟨rfl, rfl, fun _ => rfl, fun _ => rfl⟩ fun _ => rfl

/-- The shift goes and its mesh moves; the driven door and the pouch at the hip stay. -/
theorem plan_touches_only_disposable_drivenScene :
    let decided : Plan := ⟨[(1, .transformOverlap), (0, .empty)], [(2, oneStep)]⟩
    (plan (Labels.ofGraph drivenScene {} { aggressive := true })).result = .ok decided ∧
      (∀ entry ∈ decided.removals, Disposable drivenScene entry.1) ∧
      ∀ entry ∈ decided.transforms,
        (commit drivenScene decided).isRemoved entry.1 = false := by
  intro decided
  have found :
      (plan (Labels.ofGraph drivenScene {} { aggressive := true })).result = .ok decided := by
    decide +kernel
  obtain ⟨_, _, _, removals, transforms, _⟩ :=
    plan_touches_only_disposable built_drivenScene {} { aggressive := true } found
  exact ⟨found, fun entry listed => (removals entry listed).2,
    fun entry listed => (transforms entry listed).1⟩

end SceneMarkup.Pruning
