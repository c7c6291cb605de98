import SceneMarkup.Proofs.Guards
import SceneMarkup.Proofs.Trails

namespace SceneMarkup.Pruning

open Scene Markup

/-!
# What plain runs remove

Outside of aggressive runs a group goes for one of two reasons that can be read off
the scene: it prints nothing, or there are only groups below it that nothing needs.
The run itself asks less, whether it sees anything below the group; but what it
looks through has gone for the same reasons.

That needs a tidy scene, as all scenes are that are built (`Built.tidy`): a removed
node that still hangs in the tree would be seen, and it would keep what is above it.
-/

/-- A group that no clip drives and that blends no shapes. -/
structure Wrapper (graph : SceneGraph) (id : NodeId) : Prop where
  kind : (graph.node id).kind = .group ∨ (graph.node id).kind = .object3D
  undriven : ∀ clip ∈ graph.clips, id ∉ clip.targets
  shapeless : (graph.node id).morphTargets = none

/-- A group that the scene can do without, as long as no transform moves. -/
structure Superfluous
    (graph : SceneGraph)
    (index : InstanceIndex)
    (options : Options)
    (id : NodeId) :
    Prop where
  reached : graph.Reaches SceneGraph.root id
  outside : ∀ upper, graph.Reaches upper id → (graph.node upper).kind ≠ .bone
  present : graph.isRemoved id = false
  asked : options.keepGroups = false
  wrapper : Wrapper graph id
  idle :
    attributesOf (Labels.ofGraph graph index options) id = .ok [] ∨
      ∀ lower, graph.Reaches id lower → id ≠ lower → Wrapper graph lower

section Wrappers

variable {graph : SceneGraph} {index : InstanceIndex} {options : Options} {id : NodeId}

/-- What may go is a wrapper, unless groups are kept. -/
theorem isDisposable_iff_wrapper :
    isDisposable (Labels.ofGraph graph index options) id = true ↔
      options.keepGroups = false ∧ Wrapper graph id := by
  rw [isDisposable_iff, isRelevant_eq_false_iff]
  constructor
  · rintro ⟨asked, group, undriven, shapeless⟩
    exact ⟨asked, kind_of_isGroup group, undriven, shapeless⟩
  · rintro ⟨asked, wrapper⟩
    refine ⟨asked, ?_, wrapper.undriven, wrapper.shapeless⟩
    show (graph.node id).kind.isGroup = true
    rcases wrapper.kind with group | object <;> simp [*, NodeKind.isGroup]

theorem Wrapper.not_bone
    (wrapper : Wrapper graph id) :
    (graph.node id).kind ≠ .bone := by
  rcases wrapper.kind with group | object <;> simp [*]

/-- A superfluous group is met without a bone. -/
theorem Superfluous.met
    (linked : graph.Linked)
    (superfluous : Superfluous graph index options id) :
    graph.ReachesBoneless SceneGraph.root id :=
  linked.met_iff.mpr ⟨superfluous.reached,
    fun upper reaches => isBone_eq_false_iff.mpr (superfluous.outside upper reaches)⟩

/-- Where there are only wrappers below a superfluous group, they are superfluous, too. -/
theorem Superfluous.of_below
    (linked : graph.Linked)
    (tidy : Tidy graph)
    (superfluous : Superfluous graph index options id)
    (below : ∀ lower, graph.Reaches id lower → id ≠ lower → Wrapper graph lower)
    {lower : NodeId}
    (reaches : graph.Reaches id lower)
    (differ : id ≠ lower) :
    Superfluous graph index options lower where
  reached := superfluous.reached.trans reaches
  outside := by
    intro upper up
    rcases linked.reaches_comparable up reaches with above | under
    · exact superfluous.outside upper above
    · by_cases here : id = upper
      · exact here ▸ superfluous.wrapper.not_bone
      · exact (below upper under here).not_bone
  present := by
    refine tidy lower (superfluous.reached.trans reaches) ?_
    rintro rfl
    exact differ (linked.eq_root_of_reaches reaches)
  asked := superfluous.asked
  wrapper := below lower reaches differ
  idle := by
    refine .inr fun further down apart => below further (reaches.trans down) ?_
    rintro rfl
    exact apart (linked.reaches_antisymm down reaches)

end Wrappers

section Runs

variable {labels : Labels} {state : State}

/-- Groups can be written. -/
theorem isExpressible_of_group
    {node : Node}
    (group : node.kind.isGroup = true) :
    isExpressible node = true := by
  cases kind : node.kind <;>
    simp [kind, isExpressible, NodeKind.isGroup, NodeKind.isInstancedMesh] at group ⊢

/-- A group prints nothing if it is bare and its transform prints nothing. -/
theorem attributesAt_eq_nil_iff
    {id : NodeId}
    (group : (labels.graph.node id).kind.isGroup = true)
    (transform : Transform) :
    attributesAt labels id transform = .ok [] ↔
      isBare labels id = true ∧ printedTransform labels transform = [] := by
  obtain ⟨attributes, printed⟩ : ∃ attributes, attributesAt labels id transform = .ok attributes :=
    attributesAt_ok_iff.mpr (isExpressible_of_group group)
  have nothing := isEmpty_attributesAt printed
  rw [printed, Except.ok.injEq, ← List.isEmpty_iff, nothing, Bool.and_eq_true, List.isEmpty_iff]

/-- A plain run keeps a group or takes it away, and nothing stops it. -/
theorem verdict_of_plain
    (plain : labels.options.aggressive = false)
    (state : State)
    {id : NodeId}
    (group : (labels.graph.node id).kind.isGroup = true) :
    verdict labels state id = .ok (.empty, []) ∨ verdict labels state id = .ok (.keep, []) := by
  obtain ⟨attributes, printed⟩ : ∃ attributes, pendingAttributes labels state id = .ok attributes :=
    pending_ok_iff.mpr (isExpressible_of_group group)
  rw [verdict, printed, plain]
  simp only [Except.bind, Bool.not_false, if_true]
  split
  next => exact .inl rfl
  next =>
    split
    next => exact .inl rfl
    next => exact .inr rfl

theorem rewrite_of_plain
    (plain : labels.options.aggressive = false)
    (state : State)
    (id : NodeId) :
    (rewrite labels state id).fault = none := by
  rw [rewrite]
  cases eligible : isEligible labels state id with
  | false => rfl
  | true =>
      have group := (isDisposable_iff.mp (isEligible_iff.mp eligible).1).2.1
      rcases verdict_of_plain plain state group with reached | reached <;>
        rw [reached] <;> rfl

/-- Nothing stops a plain run. -/
theorem rewriteAll_of_plain
    (plain : labels.options.aggressive = false)
    (state : State)
    (ids : List NodeId) :
    (rewriteAll labels state ids).fault = none := by
  induction ids generalizing state with
  | nil => rfl
  | cons id rest ih =>
      rw [rewriteAll, rewrite_of_plain plain]
      exact ih _

/-- Every other decision asks for an aggressive run. -/
theorem Justified.of_plain
    (plain : labels.options.aggressive = false)
    {id : NodeId}
    {decision : Verdict labels.graph id}
    (justified : Justified labels state id decision) :
    decision = .keep ∨ decision = .empty := by
  have never : labels.options.aggressive ≠ true := by simp [plain]
  cases decision with
  | keep => exact .inl rfl
  | empty => exact .inr rfl
  | cancelBoth child => exact absurd justified.2.1.aggressive never
  | cancelOuter child => exact absurd justified.2.1.aggressive never
  | fold child => exact absurd justified.2.aggressive never
  | sweep => exact absurd justified.1 never

/-- Plain runs remove for one reason. -/
theorem Trimmed.removal_of_plain
    (trimmed : Trimmed labels state)
    (plain : labels.options.aggressive = false)
    {id : NodeId}
    (removed : (state.removal id).isSome = true) :
    state.removal id = some .empty := by
  refine (trimmed.plain plain id).empty.resolve_left fun stays => ?_
  rw [State.removal, stays] at removed
  cases removed

/-- What a plain run removes was there. -/
theorem present_of_removed
    (plain : labels.options.aggressive = false)
    {final : State}
    (moves : Moves labels (State.start labels.graph) final)
    {id : NodeId} :
    (final.removal id).isSome = true → labels.graph.isRemoved id = false := by
  refine moves.preserve
    (motive := fun state =>
      (state.removal id).isSome = true → labels.graph.isRemoved id = false)
    ?_ (fun _ _ before => before) ?_
  · intro removed
    rw [State.removal, mark_start] at removed
    cases removed
  · intro settled state upper decision sound ready eligible justified before removed
    rcases justified.of_plain plain with rfl | rfl
    · exact before removed
    · rw [carryOut, State.removal_remove (sound.marked ready.inside)] at removed
      by_cases here : upper = id
      · exact here ▸ (isEligible_iff.mp eligible).2.1
      · rw [if_neg here] at removed
        exact before removed

end Runs

section Final

variable {graph : SceneGraph} {index : InstanceIndex} {options : Options} {final : State}

/-- The entries of a plan are the reasons of its state. -/
theorem mem_removals_planOf
    {labels : Labels}
    {settled : NodeId → Prop}
    (sound : Sound labels settled final)
    {id : NodeId}
    {reason : Removal} :
    (id, reason) ∈ (planOf labels.graph final).removals ↔ final.removal id = some reason := by
  constructor
  · exact fun listed => removal_of_mem_planOf listed
  · intro removed
    have listed := (sound.ordered.listed id).mpr (by rw [removed]; rfl)
    exact List.mem_filterMap.mpr ⟨id, listed, by rw [removed]; rfl⟩

/-- A run leaves a group only if the scene can do without it. -/
theorem superfluous_of_removed
    (linked : graph.Linked)
    (plain : options.aggressive = false)
    (moves :
      Moves (Labels.ofGraph graph index options) (State.start graph) final)
    {settled : NodeId → Prop}
    (sound : Sound (Labels.ofGraph graph index options) settled final)
    {id : NodeId}
    (removed : (final.removal id).isSome = true) :
    Superfluous graph index options id := by
  have labelsLinked : (Labels.ofGraph graph index options).graph.Linked := linked
  have trimmed := Trimmed.of_moves labelsLinked moves
  have disposable := isDisposable_iff_wrapper.mp ((sound.node id).disposable removed)
  have met := ((Guarded.of_moves labelsLinked moves id).removed removed).1.met
  obtain ⟨reached, free⟩ := linked.met_iff.mp met
  refine ⟨reached, fun upper reaches => isBone_eq_false_iff.mp (free upper reaches),
    present_of_removed plain moves removed, disposable.1, disposable.2, ?_⟩
  have clears := State.clears_iff.mpr (.inl (trimmed.removal_of_plain plain removed))
  rcases trimmed.clear id clears with spare | barren
  · refine .inl ((attributesAt_eq_nil_iff ?_ _).mpr ⟨spare.bare, spare.resting plain⟩)
    exact (isDisposable_iff.mp ((sound.node id).disposable removed)).2.1
  · refine .inr fun lower reaches differ => ?_
    have gone := State.isSome_of_hidden (barren lower reaches differ)
    exact (isDisposable_iff_wrapper.mp ((sound.node lower).disposable gone)).2

/-- A group that the scene can do without is not left when the run ends. -/
theorem removed_of_superfluous
    (linked : graph.Linked)
    (tidy : Tidy graph)
    (plain : options.aggressive = false)
    (moves :
      Moves (Labels.ofGraph graph index options) (State.start graph) final)
    (sound :
      Sound (Labels.ofGraph graph index options)
        (· ∈ graph.innermostFirst SceneGraph.root) final)
    {id : NodeId}
    (superfluous : Superfluous graph index options id) :
    (final.removal id).isSome = true := by
  have labelsLinked : (Labels.ofGraph graph index options).graph.Linked := linked
  have trimmed := Trimmed.of_moves labelsLinked moves
  induction id using linked.descendantsFirst with
  | step id ih =>
      by_contra stays
      rw [Option.not_isSome_iff_eq_none] at stays
      have disposable :
          isDisposable (Labels.ofGraph graph index options) id = true :=
        isDisposable_iff_wrapper.mpr ⟨superfluous.asked, superfluous.wrapper⟩
      have eligible := isEligible_iff.mpr ⟨disposable, superfluous.present, stays⟩
      have settled := linked.mem_innermostFirst.mpr (superfluous.met linked)
      have steady := (sound.node id).steady settled eligible
      rcases superfluous.idle with nothing | below
      · -- A plain run moves nothing, so the group prints nothing at the end either.
        obtain ⟨bare, resting⟩ :=
          (attributesAt_eq_nil_iff (isDisposable_iff.mp disposable).2.1 _).mp nothing
        refine steady.prints bare ?_
        rw [State.transform, (trimmed.plain plain id).unmoved]
        exact resting
      · -- Whatever the group sees would be superfluous itself, and so it would be gone.
        obtain ⟨lower, seen⟩ := List.exists_mem_of_ne_nil _ (steady.sees plain)
        obtain ⟨exposes, shows⟩ := (State.mem_front labelsLinked).mp seen
        have gone := ih lower exposes.reaches exposes.differ
          (superfluous.of_below linked tidy below exposes.reaches exposes.differ)
        rw [State.shows, trimmed.removal_of_plain plain gone] at shows
        cases shows

end Final

/--
Outside of aggressive runs a plan is always found, it moves nothing, and the groups that
it removes are known beforehand: they are those that the root reaches without a bone, that
are present and that nothing needs, and that print nothing or hold only groups that nothing
needs; none if groups are kept.
-/
theorem plain_plan_removes_superfluous
    {graph : SceneGraph}
    (linked : graph.Linked)
    (tidy : Tidy graph)
    (index : InstanceIndex)
    {options : Options}
    (plain : options.aggressive = false) :
    ∃ decided,
      (plan (Labels.ofGraph graph index options)).result = .ok decided ∧
        decided.transforms = [] ∧
        ∀ id reason,
          (id, reason) ∈ decided.removals ↔
            reason = .empty ∧ Superfluous graph index options id := by
  have labelsLinked : (Labels.ofGraph graph index options).graph.Linked := linked
  have found :
      (plan (Labels.ofGraph graph index options)).result =
        .ok (planOf graph (run (Labels.ofGraph graph index options)).state) := by
    have faultless : (run (Labels.ofGraph graph index options)).fault = none :=
      rewriteAll_of_plain plain _ _
    simp only [plan, faultless]
    rfl
  obtain ⟨_, moves, sound⟩ := run_of_plan labelsLinked found
  have trimmed := Trimmed.of_moves labelsLinked moves
  refine ⟨_, found, ?_, fun id reason => ?_⟩
  · rw [List.eq_nil_iff_forall_not_mem]
    rintro ⟨id, transform⟩ listed
    have moved := ((mem_transforms_planOf labelsLinked).mp listed).2.2
    rw [(trimmed.plain plain id).unmoved] at moved
    cases moved
  · constructor
    · intro listed
      have removed := (mem_removals_planOf sound).mp listed
      have gone := Option.isSome_of_eq_some removed
      have empty := trimmed.removal_of_plain plain gone
      rw [removed] at empty
      exact ⟨Option.some.inj empty, superfluous_of_removed linked plain moves sound gone⟩
    · rintro ⟨rfl, superfluous⟩
      have gone := removed_of_superfluous linked tidy plain moves sound superfluous
      exact (mem_removals_planOf sound).mpr (trimmed.removal_of_plain plain gone)

/-- The driven scene with an attic, one step aside, that holds an empty crate, another step aside. -/
def atticScene : SceneGraph :=
  (drivenScene.add 0 { name := "Attic", transform := oneStep }).add 8
    { name := "Crate", transform := oneStep }

theorem built_atticScene : Built atticScene :=
  (built_drivenScene.add (by decide) _).add (by decide) _

/-- The attic goes for what it holds, and the root for what it prints; the shift above a box, the
driven door and the pouch at the hip stay. -/
theorem plain_plan_removes_superfluous_atticScene :
    let decided : Plan := ⟨[(9, .empty), (8, .empty), (0, .empty)], []⟩
    (plan (Labels.ofGraph atticScene {} {})).result = .ok decided ∧
      ∀ id, Superfluous atticScene {} {} id ↔ id = 9 ∨ id = 8 ∨ id = 0 := by
  intro decided
  have found : (plan (Labels.ofGraph atticScene {} {})).result = .ok decided := by
    decide +kernel
  have plain : ({} : Options).aggressive = false := rfl
  obtain ⟨same, reached, _, removals⟩ :=
    plain_plan_removes_superfluous built_atticScene.linked built_atticScene.tidy {} plain
  obtain rfl : decided = same := Except.ok.inj (found.symm.trans reached)
  refine ⟨found, fun id => ?_⟩
  have listed := removals id .empty
  simp only [true_and, decided] at listed
  rw [← listed]
  simp

end SceneMarkup.Pruning
