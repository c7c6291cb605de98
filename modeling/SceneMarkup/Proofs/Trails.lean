import SceneMarkup.Proofs.Cancelling
import SceneMarkup.Proofs.FixedPoint
import SceneMarkup.Proofs.WorldPlacement

namespace SceneMarkup.Markup

open Scene

/-!
# What is printed on the way to a node

From the root down to a node, the present nodes print one list of attributes
each.  A node that pruning takes off the way of a survivor prints nothing but its
transform, and outside of aggressive runs it prints nothing at all.
-/

/-- The attributes other than position, rotation and scale. -/
def Attributes.still (attributes : Attributes) : Attributes :=
  attributes.filter fun entry => !entry.key.isTransform

/-- The lists that hold an attribute. -/
def laden (lists : List Attributes) : List Attributes :=
  lists.filter fun attributes => !attributes.isEmpty

/-- What the present nodes from the root down to `id` print. -/
def attributesAlong (labels : Labels) (id : NodeId) : Except Malformed (List Attributes) :=
  ((labels.graph.path id).filter fun node => !labels.graph.isRemoved node).mapM
    (attributesOf labels)

section Lists

/-- Nodes that print nothing may be left out. -/
theorem laden_map_filter
    {nodes : List NodeId}
    {early late : NodeId → Bool}
    {before after : NodeId → Attributes}
    (fewer : ∀ node ∈ nodes, late node = true → early node = true)
    (same : ∀ node ∈ nodes, late node = true → after node = before node)
    (nothing :
      ∀ node ∈ nodes, early node = true → late node = false → before node = []) :
    laden ((nodes.filter late).map after) = laden ((nodes.filter early).map before) := by
  induction nodes with
  | nil => rfl
  | cons node rest ih =>
      have others :=
        ih (fun other member => fewer other (List.mem_cons_of_mem _ member))
          (fun other member => same other (List.mem_cons_of_mem _ member))
          fun other member => nothing other (List.mem_cons_of_mem _ member)
      unfold laden at others ⊢
      cases kept : late node with
      | true =>
          rw [List.filter_cons_of_pos kept,
            List.filter_cons_of_pos (fewer node List.mem_cons_self kept), List.map_cons,
            List.map_cons, same node List.mem_cons_self kept, List.filter_cons, List.filter_cons,
            others]
      | false =>
          rw [List.filter_cons_of_neg (by simp [kept]), others]
          cases present : early node with
          | true =>
              have empty := nothing node List.mem_cons_self present kept
              rw [List.filter_cons_of_pos present, List.map_cons, empty]
              rfl
          | false => rw [List.filter_cons_of_neg (by simp [present])]

/-- A row of steps that all succeed gives the row of their results. -/
theorem mapM_of_ok
    {step : NodeId → Except Malformed Attributes}
    {written : NodeId → Attributes}
    {nodes : List NodeId}
    (each : ∀ node ∈ nodes, step node = .ok (written node)) :
    nodes.mapM step = .ok (nodes.map written) := by
  induction nodes with
  | nil => rfl
  | cons node rest ih =>
      rw [List.mapM_cons, each node List.mem_cons_self,
        ih fun other member => each other (List.mem_cons_of_mem _ member)]
      rfl

end Lists

section Printed

variable {labels : Labels} {id : NodeId} {transform other : Transform}
  {attributes again : Attributes}

/-- Attributes without a transform are still as they are. -/
theorem still_of_hasTransform
    {part : Attributes}
    (still : part.hasTransform = false) :
    part.still = part :=
  List.filter_eq_self.mpr fun _ member => by simp [Attributes.key_of_still still member]

/-- The attributes of a node but for the transform are what stands before and behind it. -/
theorem still_attributesAt
    (printed : attributesAt labels id transform = .ok attributes) :
    ∃ leading,
      (NodeContext.ofLabels labels id).leadingBlock = .ok leading ∧
        attributes.still = leading ++ (NodeContext.ofLabels labels id).dataBlock := by
  obtain ⟨leading, leadingPrinted, still, parts⟩ := attributesAt_parts printed
  have moving : (printedTransform labels transform).still = [] :=
    List.filter_eq_nil_iff.mpr fun _ member => by simp [isTransform_of_mem member]
  have data := still_of_hasTransform (NodeContext.hasTransform_dataBlock
    (NodeContext.ofLabels labels id))
  have before := still_of_hasTransform still
  refine ⟨leading, leadingPrinted, ?_⟩
  unfold Attributes.still at moving data before ⊢
  rw [parts, List.filter_append, List.filter_append, moving, data, before, List.append_nil]

/-- What a node prints besides its transform does not depend on where it stands. -/
theorem still_eq_of_moved
    (printed : attributesAt labels id transform = .ok attributes)
    (moved : attributesAt labels id other = .ok again) :
    again.still = attributes.still := by
  obtain ⟨leading, known, parts⟩ := still_attributesAt printed
  obtain ⟨leadingAgain, knownAgain, partsAgain⟩ := still_attributesAt moved
  rw [known] at knownAgain
  rw [parts, partsAgain, Except.ok.inj knownAgain]

/-- A bare node prints nothing but its transform. -/
theorem still_of_isBare
    (bare : isBare labels id = true)
    (printed : attributesAt labels id transform = .ok attributes) :
    attributes.still = [] := by
  obtain ⟨leading, known, parts⟩ := still_attributesAt printed
  rw [isBare, NodeContext.isBare, known] at bare
  simpa [parts] using bare

end Printed

end SceneMarkup.Markup

namespace SceneMarkup.Scene.SceneGraph

open Pruning

section Paths

variable {graph : SceneGraph}

/-- The nodes of a path reach its end. -/
theorem Linked.above_of_path
    (linked : graph.Linked)
    {id node : NodeId}
    (inside : id < graph.size)
    (listed : node ∈ graph.path id) :
    graph.Reaches node id ∧ node < graph.size := by
  have reaches := linked.mem_path.mp listed
  exact ⟨reaches, Nat.lt_of_le_of_lt (linked.le_of_reaches reaches) inside⟩

/-- Above a node that the root does not reach, a commit changes nothing. -/
theorem Linked.path_commit_of_unreached
    (linked : graph.Linked)
    (plan : Plan)
    {id : NodeId}
    (unreached : ¬ graph.Reaches root id) :
    (commit graph plan).path id = graph.path id := by
  have above : (commit graph plan).ancestors id = graph.ancestors id := by
    -- Holders come before what they hold, and they are not reached either.
    induction id using Nat.strongRecOn with
    | ind id ih =>
        have kept := (links_commit_of_unreached linked plan unreached).1
        cases parent : (graph.node id).parent with
        | none => rw [ancestors_orphan parent, ancestors_orphan (kept.trans parent)]
        | some holder =>
            have member := linked.mem_of_parent parent
            have further := mt (reached_iff_of_member linked member).mpr unreached
            have treeLinked := linked_commit linked plan
            rw [linked.ancestors_child member,
              treeLinked.ancestors_child (treeLinked.mem_of_parent (kept.trans parent)),
              ih holder (linked.forward member).1 further]
  rw [path, path, above]

/-- After a commit, the present nodes above a survivor are the present ones above it before. -/
theorem Linked.present_path
    (linked : graph.Linked)
    (plan : Plan)
    {id : NodeId}
    (present : (commit graph plan).isRemoved id = false) :
    ((commit graph plan).path id).filter (fun node => !(commit graph plan).isRemoved node) =
      (graph.path id).filter fun node => !(commit graph plan).isRemoved node := by
  by_cases reached : graph.Reaches root id
  · exact linked.present_path_commit plan reached present
  · rw [linked.path_commit_of_unreached plan reached]

end Paths

end SceneMarkup.Scene.SceneGraph

namespace SceneMarkup.Pruning

open Scene Markup

section Trimming

variable {labels : Labels} {settled : NodeId → Prop} {state other : State} {id : NodeId}

/-- Nothing is decided about the node but, at most, that it is empty. -/
structure Mark.Plain (mark : Mark) : Prop where
  unmoved : mark.replacement = none
  empty : mark.removal = none ∨ mark.removal = some .empty

/-- The node prints nothing but its transform, and not even that outside of aggressive runs. -/
structure Spare (labels : Labels) (id : NodeId) : Prop where
  bare : isBare labels id = true
  resting :
    labels.options.aggressive = false →
      printedTransform labels (labels.graph.node id).transform = []

/-- What is looked through is spare, or nothing shows below it. -/
structure Trimmed (labels : Labels) (state : State) : Prop where
  clear : ∀ id, state.clears id = true → Spare labels id ∨ Barren labels state id
  plain : labels.options.aggressive = false → ∀ id, (state.mark id).Plain

theorem trimmed_start
    (labels : Labels) :
    Trimmed labels (State.start labels.graph) where
  clear := by
    intro id clears
    rw [State.clears, State.removal, mark_start] at clears
    cases clears
  plain := by
    intro _ id
    rw [mark_start]
    exact ⟨rfl, .inl rfl⟩

/-- A state that shows no more than another one is trimmed alike, if what it looks through may be
looked through. -/
theorem Trimmed.step
    (trimmed : Trimmed labels state)
    (fewer : ∀ node, other.shows node = true → state.shows node = true)
    (clear :
      ∀ node, other.clears node = true →
        state.clears node = true ∨ Spare labels node ∨ Barren labels state node)
    (plain : labels.options.aggressive = false → ∀ node, (other.mark node).Plain) :
    Trimmed labels other where
  clear := by
    intro node clears
    rcases clear node clears with before | spare | barren
    · exact (trimmed.clear node before).imp_right fun barren => barren.mono fewer
    · exact .inl spare
    · exact .inr (barren.mono fewer)
  plain := plain

/-- Aggressive decisions that change what is seen at one node that shows keep the state trimmed. -/
theorem Trimmed.alike
    (trimmed : Trimmed labels state)
    (aggressive : labels.options.aggressive = true)
    (alike :
      ∀ node, other.shows node = state.shows node ∧ other.clears node = state.clears node) :
    Trimmed labels other := by
  refine trimmed.step (fun node shows => (alike node).1 ▸ shows)
    (fun node clears => .inl ((alike node).2 ▸ clears)) fun plain => ?_
  exact absurd aggressive (Bool.eq_false_iff.mp plain)

/-- A node may be looked through that is spare or has nothing showing below it. -/
theorem Trimmed.remove
    (trimmed : Trimmed labels state)
    (inside : id < state.marks.size)
    {reason : Removal}
    (asked : labels.options.aggressive = false → reason = .empty)
    (clearing : reason = .empty ∨ reason = .doubleNegative)
    (idle : Spare labels id ∨ Barren labels state id) :
    Trimmed labels (state.remove labels id reason) := by
  have marks := State.mark_remove inside labels reason
  have removal := State.removal_remove inside labels reason
  refine trimmed.step ?_ ?_ ?_
  · intro node shows
    by_cases here : id = node
    · rw [State.shows, removal, if_pos here] at shows
      rcases clearing with rfl | rfl <;> cases shows
    · rwa [State.shows, removal, if_neg here] at shows
  · intro node clears
    by_cases here : id = node
    · exact .inr (here ▸ idle)
    · rw [State.clears, removal, if_neg here] at clears
      exact .inl clears
  · intro plain node
    have before := trimmed.plain plain node
    rw [marks]
    split
    next => exact ⟨before.unmoved, .inr (congrArg some (asked plain))⟩
    next => exact before

/-- A node that prints nothing but its transform may be cancelled in aggressive runs. -/
theorem Trimmed.cancel
    (trimmed : Trimmed labels state)
    (inside : id < state.marks.size)
    (aggressive : labels.options.aggressive = true)
    (bare : isBare labels id = true) :
    Trimmed labels (state.remove labels id .doubleNegative) := by
  have never : labels.options.aggressive ≠ false := by simp [aggressive]
  have spare : Spare labels id := ⟨bare, fun plain => absurd plain never⟩
  exact trimmed.remove inside (fun plain => absurd plain never) (.inr rfl) (.inl spare)

/-- Cancelling rotations keeps a state trimmed. -/
theorem Trimmed.outerGone
    (linked : labels.graph.Linked)
    (sound : Sound labels settled state)
    (trimmed : Trimmed labels state)
    (ready : Ready labels settled state id)
    {child : NodeId}
    (seen : child ∈ state.front labels.graph id)
    (cancels : Cancels labels state id child) :
    Trimmed labels (outerGone labels state id child) := by
  obtain ⟨exposes, shows⟩ := (State.mem_front linked).mp seen
  have childInside := (linked.forward_of_reaches exposes.reaches exposes.differ).2
  have restored := sound.restore linked (ready.open_front linked exposes) childInside shows
  have alike := sound.alike_restore linked childInside shows
  exact (trimmed.alike cancels.aggressive alike).cancel (restored.marked ready.inside)
    cancels.aggressive cancels.bare

/-- Whatever is decided for an eligible node keeps a state trimmed. -/
theorem Trimmed.carryOut
    (linked : labels.graph.Linked)
    (sound : Sound labels settled state)
    (trimmed : Trimmed labels state)
    (ready : Ready labels settled state id)
    (eligible : isEligible labels state id = true)
    {decision : Verdict labels.graph id}
    (justified : Justified labels state id decision) :
    Trimmed labels (carryOut labels state id decision) := by
  obtain ⟨_, _, stays⟩ := isEligible_iff.mp eligible
  have inside := sound.marked ready.inside
  cases decision with
  | keep => exact trimmed
  | empty =>
      refine trimmed.remove inside (fun _ => rfl) (.inl rfl) ?_
      rcases justified with ⟨bare, resting⟩ | nothing
      -- What is printed is the present transform, which is the own one where nothing moves.
      · refine .inl ⟨bare, fun plain => ?_⟩
        rw [State.transform, (trimmed.plain plain id).unmoved] at resting
        exact resting
      · exact .inr (sound.barren linked nothing)
  | cancelBoth child =>
      obtain ⟨alone, cancels, onlyTurns⟩ := justified
      have seen : child.val ∈ state.front labels.graph id := by simp [alone]
      obtain ⟨gone, _⟩ := outerGone_spec linked sound ready eligible seen
      exact (trimmed.outerGone linked sound ready seen cancels).cancel
        (gone.marked child.property.2) cancels.aggressive onlyTurns.1
  | cancelOuter child =>
      obtain ⟨alone, cancels, _⟩ := justified
      have seen : child.val ∈ state.front labels.graph id := by simp [alone]
      obtain ⟨gone, _⟩ := outerGone_spec linked sound ready eligible seen
      have removal :
          ∀ node,
            (Pruning.carryOut labels state id (.cancelOuter child)).removal node =
              (Pruning.outerGone labels state id child.val).removal node :=
        State.removal_setTransform (gone.marked child.property.2) _
      refine (trimmed.outerGone linked sound ready seen cancels).alike cancels.aggressive
        fun node => ?_
      rw [State.shows, State.clears, removal]
      exact ⟨rfl, rfl⟩
  | fold child =>
      obtain ⟨alone, folds⟩ := justified
      have seen : child.val ∈ state.front labels.graph id := by simp [alone]
      have exposes := ((State.mem_front linked).mp seen).1
      exact trimmed.alike folds.aggressive
        (State.alike_foldInto inside (sound.marked child.property.2) exposes.differ stays)
  | sweep =>
      have removal :
          ∀ node,
            (Pruning.carryOut labels state id .sweep).removal node =
              if node ∈ labels.graph.traverse id then some .noContent else state.removal node :=
        State.removal_sweepSubtree sound.ordered (sound.marked_below linked ready.inside)
      -- Nothing that is swept shows or is looked through, for the whole subtree is out of sight.
      refine trimmed.step ?_ ?_ fun plain => ?_
      · intro node shows
        rw [State.shows, removal] at shows
        by_cases swept : node ∈ labels.graph.traverse id
        · rw [if_pos swept] at shows
          cases shows
        · rwa [if_neg swept] at shows
      · intro node clears
        rw [State.clears, removal] at clears
        by_cases swept : node ∈ labels.graph.traverse id
        · rw [if_pos swept] at clears
          cases clears
        · rw [if_neg swept] at clears
          exact .inl clears
      · exact absurd justified.1 (Bool.eq_false_iff.mp plain)

/-- Every state that a run can lead to is trimmed. -/
theorem Trimmed.of_moves
    (linked : labels.graph.Linked)
    {final : State}
    (moves : Moves labels (State.start labels.graph) final) :
    Trimmed labels final := by
  refine moves.preserve (trimmed_start labels)
    (fun _ _ trimmed => ⟨trimmed.clear, trimmed.plain⟩) ?_
  intro settled state id decision sound ready eligible justified trimmed
  exact trimmed.carryOut linked sound ready eligible justified

/-- What goes above a survivor is spare. -/
theorem spare_of_removed
    (sound : Sound labels settled state)
    (trimmed : Trimmed labels state)
    {lower : NodeId}
    (removed : (state.removal id).isSome = true)
    (reaches : labels.graph.Reaches id lower)
    (stays : state.removal lower = none) :
    Spare labels id := by
  have differ : id ≠ lower := by
    rintro rfl
    rw [stays] at removed
    cases removed
  have ofClears : state.clears id = true → Spare labels id := by
    intro clears
    -- The survivor below shows, so the node is not looked through for being barren.
    rcases trimmed.clear id clears with spare | barren
    · exact spare
    · have shows := barren lower reaches differ
      rw [State.shows_of_none stays] at shows
      cases shows
  obtain ⟨reason, known⟩ := Option.isSome_iff_exists.mp removed
  cases reason with
  | empty => exact ofClears (State.clears_iff.mpr (.inl known))
  | doubleNegative => exact ofClears (State.clears_iff.mpr (.inr known))
  | transformOverlap =>
      obtain ⟨push, folded⟩ := (sound.node id).folded known
      refine ⟨folded.bare, fun plain => ?_⟩
      rcases (trimmed.plain plain id).empty with contrary | contrary
      all_goals
        rw [← State.removal, known] at contrary
        cases contrary
  | noContent =>
      have swept := sound.swept_below known reaches
      rw [stays] at swept
      cases swept

end Trimming

section Survivors

variable {labels : Labels} {settled : NodeId → Prop} {final : State} {id : NodeId}

/-- Where every node prints, the way to a node does. -/
theorem attributesAlong_eq
    (linked : labels.graph.Linked)
    {written : NodeId → Attributes}
    (each :
      ∀ node, node < labels.graph.size → attributesOf labels node = .ok (written node))
    (inside : id < labels.graph.size) :
    attributesAlong labels id =
      .ok (((labels.graph.path id).filter fun node => !labels.graph.isRemoved node).map
        written) := by
  refine mapM_of_ok fun node listed => each node ?_
  exact (linked.above_of_path inside (List.mem_filter.mp listed).1).2

/-- Two readings of the way to a survivor agree that agree at every node, if spare nodes read as
nothing. -/
theorem laden_survivors
    (linked : labels.graph.Linked)
    (sound : Sound labels settled final)
    (trimmed : Trimmed labels final)
    (inside : id < labels.graph.size)
    (survives : (finalTree labels final).isRemoved id = false)
    {before after : NodeId → Attributes}
    (same : ∀ node, node < labels.graph.size → after node = before node)
    (nothing : ∀ node, node < labels.graph.size → Spare labels node → before node = []) :
    laden (((labels.graph.path id).filter fun node =>
        !(finalTree labels final).isRemoved node).map after) =
      laden (((labels.graph.path id).filter fun node => !labels.graph.isRemoved node).map
        before) := by
  have removed := isRemoved_finalTree linked sound
  have stays : final.removal id = none := by
    rw [removed, Bool.or_eq_false_iff] at survives
    exact Option.isNone_iff_eq_none.mp (Option.isSome_eq_false_iff.mp survives.2)
  refine laden_map_filter ?_ ?_ ?_
  · intro node _ present
    rw [removed] at present
    simp_all
  · exact fun node listed _ => same node (linked.above_of_path inside listed).2
  · intro node listed present gone
    rw [removed] at gone
    obtain ⟨reaches, nodeInside⟩ := linked.above_of_path inside listed
    exact nothing node nodeInside (spare_of_removed sound trimmed (by simp_all) reaches stays)

/-- Outside of aggressive runs, nothing is moved. -/
theorem transform_finalTree_of_plain
    (linked : labels.graph.Linked)
    (trimmed : Trimmed labels final)
    (plain : labels.options.aggressive = false)
    (inside : id < labels.graph.size) :
    ((finalTree labels final).node id).transform = (labels.graph.node id).transform := by
  rw [finalTree, node_commit_fields linked _ inside]
  rcases (planOf labels.graph final).placed_eq id (labels.graph.node id).transform with
    kept | listed
  · exact kept
  · have replaced := ((mem_transforms_planOf linked).mp listed).2.2
    rw [(trimmed.plain plain id).unmoved] at replaced
    cases replaced

end Survivors

/--
Pruning loses no attribute on the way to a survivor: along its path, the lists of
attributes other than position, rotation and scale are the same before and after,
empty lists aside.  Outside of aggressive runs the same holds for whole lists.
-/
theorem plan_keeps_attributes
    {graph : SceneGraph}
    {index : InstanceIndex}
    {options : Options}
    {decided : Plan}
    (linked : graph.Linked)
    (expressible :
      ∀ id, id < graph.size →
        ∃ written, attributesOf (Labels.ofGraph graph index options) id = .ok written)
    (found : (plan (Labels.ofGraph graph index options)).result = .ok decided)
    {id : NodeId}
    (inside : id < graph.size)
    (survives : (commit graph decided).isRemoved id = false) :
    ∃ before after,
      attributesAlong (Labels.ofGraph graph index options) id = .ok before ∧
        attributesAlong (Labels.ofGraph (commit graph decided) index options) id = .ok after ∧
        laden (after.map Attributes.still) = laden (before.map Attributes.still) ∧
        (options.aggressive = false → laden after = laden before) := by
  have labelsLinked : (Labels.ofGraph graph index options).graph.Linked := linked
  obtain ⟨final, rfl, moves, sound⟩ := plan_spec labelsLinked found
  have trimmed := Trimmed.of_moves labelsLinked moves
  have redrawn := Labels.redrawn_commit linked (planOf graph final) index index options
  have treeLinked :
      (Labels.ofGraph (commit graph (planOf graph final)) index options).graph.Linked :=
    linked_commit linked _
  have size : (commit graph (planOf graph final)).size = graph.size := size_commit _ _
  have survivors :
      ∀ {before after : NodeId → Attributes},
        (∀ node, node < graph.size → after node = before node) →
        (∀ node, node < graph.size → Spare (Labels.ofGraph graph index options) node →
          before node = []) →
        laden (((commit graph (planOf graph final)).path id).filter (fun node =>
            !(commit graph (planOf graph final)).isRemoved node) |>.map after) =
          laden (((graph.path id).filter fun node => !graph.isRemoved node).map before) := by
    intro before after same nothing
    rw [linked.present_path (planOf graph final) survives]
    exact laden_survivors labelsLinked sound trimmed inside survives same nothing
  -- The commit changes what a node prints by its new place only.
  have moved :
      ∀ node,
        attributesOf (Labels.ofGraph (commit graph (planOf graph final)) index options) node =
          attributesAt (Labels.ofGraph graph index options) node
            ((commit graph (planOf graph final)).node node).transform :=
    fun node => redrawn.attributesAt_of_index rfl node _
  have again :
      ∀ node, node < graph.size →
        ∃ written,
          attributesOf (Labels.ofGraph (commit graph (planOf graph final)) index options) node =
            .ok written := by
    intro node nodeInside
    rw [moved]
    exact attributesAt_ok_iff.mpr (attributesAt_ok_iff.mp (expressible node nodeInside))
  choose! before printed using expressible
  choose! after printedAfter using again
  have seen : ∀ node, node < graph.size →
      attributesAt (Labels.ofGraph graph index options) node
        ((commit graph (planOf graph final)).node node).transform = .ok (after node) :=
    fun node nodeInside => (moved node).symm.trans (printedAfter node nodeInside)
  refine ⟨_, _, attributesAlong_eq labelsLinked printed inside,
    attributesAlong_eq treeLinked (fun node nodeInside => printedAfter node (size ▸ nodeInside))
      (size ▸ inside), ?_, fun plain => survivors ?_ ?_⟩
  · rw [List.map_map, List.map_map]
    refine survivors (fun node nodeInside => ?_) fun node nodeInside spare => ?_
    · exact still_eq_of_moved (printed node nodeInside) (seen node nodeInside)
    · exact still_of_isBare spare.bare (printed node nodeInside)
  · intro node nodeInside
    have unmoved : ((commit graph (planOf graph final)).node node).transform =
        (graph.node node).transform :=
      transform_finalTree_of_plain labelsLinked trimmed plain nodeInside
    have same := seen node nodeInside
    rw [unmoved] at same
    exact Except.ok.inj (same.symm.trans (printed node nodeInside))
  · intro node nodeInside spare
    have nothing := isEmpty_attributesAt (printed node nodeInside)
    rw [spare.bare, spare.resting plain] at nothing
    exact List.isEmpty_iff.mp nothing

/-- A hidden group that shifts what it holds: a wrapper around a box that casts a shadow. -/
def hiddenScene : SceneGraph :=
  (((SceneGraph.ofRoot "Scene").add 0
    { name := "Hidden", transform := oneStep, visible := false }).add 1
    { name := "Wrapper" }).add 2 { name := "Box", kind := .mesh, castShadow := true }

theorem linked_hiddenScene : hiddenScene.Linked :=
  (((SceneGraph.linked_ofRoot "Scene").add (by decide) _).add (by decide) _).add (by decide) _

/-- The wrapper goes, and on the way to the box the same is printed as before. -/
theorem plan_keeps_attributes_hiddenScene :
    let decided : Plan := ⟨[(2, .empty), (0, .empty)], []⟩
    (plan (Labels.ofGraph hiddenScene {} {})).result = .ok decided ∧
      ∃ before after,
        attributesAlong (Labels.ofGraph hiddenScene {} {}) 3 = .ok before ∧
          attributesAlong (Labels.ofGraph (commit hiddenScene decided) {} {}) 3 = .ok after ∧
          laden after = laden before := by
  intro decided
  have found : (plan (Labels.ofGraph hiddenScene {} {})).result = .ok decided := by
    decide +kernel
  have expressible : ∀ id, id < hiddenScene.size →
      isExpressible (hiddenScene.node id) = true := by
    decide
  obtain ⟨before, after, printed, printedAfter, _, same⟩ :=
    plan_keeps_attributes linked_hiddenScene
      (fun id inside => attributesAt_ok_iff.mpr (expressible id inside)) found
      (by decide : 3 < hiddenScene.size) (by decide +kernel)
  exact ⟨found, before, after, printed, printedAfter, same rfl⟩

end SceneMarkup.Pruning
