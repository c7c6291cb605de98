import SceneMarkup.Proofs.Guards

namespace SceneMarkup.Pruning

open Scene Markup

/-!
# Runs foresee the tree that their plans lead to

While a run decides, a node is taken to have the children that it sees: empty and
cancelled groups are looked through, and folded ones stand for their targets.  The
plan that the run ends with gives every node that keeps its place just these children.
-/

section Final

variable {labels : Labels} {settled : NodeId → Prop} {final : State}

/-- A node that the root does not reach sees its children, which stand for themselves. -/
theorem front_of_unreached
    (linked : labels.graph.Linked)
    (guarded : Guarded labels final)
    {id : NodeId}
    (unreached : ¬ labels.graph.Reaches SceneGraph.root id) :
    (final.front labels.graph id).map final.standIn = labels.graph.children id := by
  have unmarked : ∀ child ∈ labels.graph.children id, final.removal child = none := by
    intro child member
    rw [← Option.not_isSome_iff_eq_none]
    intro removed
    have met := ((guarded child).removed removed).1.met
    exact unreached (linked.reached_above met.reaches (SceneGraph.Reaches.child member))
  rw [State.front_of_stays linked unmarked]
  rw [List.map_congr_left fun child member => State.standIn_of_stays (unmarked child member),
    List.map_id']

/-- Nodes that keep their place get the children that they saw at last, whether or not the root
reaches them. -/
theorem children_finalTree_of_stays
    (linked : labels.graph.Linked)
    (tidy : Tidy labels.graph)
    (guarded : Guarded labels final)
    (sound : Sound labels settled final)
    {id : NodeId}
    (stays : (finalMarks labels final).stays id = true) :
    (finalTree labels final).children id =
      (final.front labels.graph id).map final.standIn := by
  by_cases reached : labels.graph.Reaches SceneGraph.root id
  · exact children_finalTree linked tidy sound reached stays
  · rw [front_of_unreached linked guarded reached]
    exact (links_commit_of_unreached linked _ reached).2

end Final

/--
The view that a run has of a scene agrees with the tree that its plan leads to: a
node that survives, and the root in any case, gets the children that it sees in the
final state, each folded one replaced by the node that its transform was pushed onto.
For every folded one such a node is recorded, and it survives.
-/
theorem commit_gives_seen_children
    {graph : SceneGraph}
    {index : InstanceIndex}
    {options : Options}
    {decided : Plan}
    (linked : graph.Linked)
    (tidy : Tidy graph)
    (found : (plan (Labels.ofGraph graph index options)).result = .ok decided)
    {id : NodeId}
    (stays : id = SceneGraph.root ∨ (commit graph decided).isRemoved id = false) :
    let final := (run (Labels.ofGraph graph index options)).state
    (commit graph decided).children id =
        (final.effectiveChildren graph id).map (fun seen => final.standIn seen.val) ∧
      ∀ seen ∈ final.effectiveChildren graph id,
        final.removal seen.val = some .transformOverlap →
          ∃ push,
            (final.mark seen.val).pushed = some push ∧
              final.standIn seen.val = push.target ∧ final.removal push.target = none := by
  intro final
  have labelsLinked : (Labels.ofGraph graph index options).graph.Linked := linked
  obtain ⟨rfl, moves, sound⟩ := run_of_plan labelsLinked found
  have guarded := Guarded.of_moves labelsLinked moves
  constructor
  · have keeps : (finalMarks (Labels.ofGraph graph index options) final).stays id = true := by
      rw [SceneGraph.stays, Bool.or_eq_true, Bool.not_eq_true', beq_iff_eq]
      refine stays.symm.imp_left fun present => ?_
      rw [isRemoved_commit] at present
      exact present
    have children := children_finalTree_of_stays labelsLinked tidy guarded sound keeps
    rw [State.front, List.map_map] at children
    exact children
  · intro seen _ folded
    obtain ⟨push, onto⟩ := (sound.node seen.val).folded folded
    exact ⟨push, onto.recorded, State.standIn_of_recorded folded onto.recorded, onto.stays⟩

/-- The root sees the shift, which is folded onto its box, and through the wrapper; it gets the box
and what the wrapper held. -/
theorem commit_gives_seen_children_shiftedScene :
    let labels := Labels.ofGraph shiftedScene {} { aggressive := true }
    let final := (run labels).state
    let decided : Plan :=
      ⟨[(1, .transformOverlap), (3, .empty), (0, .empty)], [(2, oneStep)]⟩
    (plan labels).result = .ok decided ∧
      (final.effectiveChildren shiftedScene SceneGraph.root).map (·.val) = [1, 4, 5] ∧
      (commit shiftedScene decided).children SceneGraph.root =
        (final.effectiveChildren shiftedScene SceneGraph.root).map
          (fun seen => final.standIn seen.val) ∧
      (commit shiftedScene decided).children SceneGraph.root = [2, 4, 5] := by
  intro labels final decided
  obtain ⟨linked, untouched⟩ := linked_shiftedScene
  have found : (plan labels).result = .ok decided := by
    decide +kernel
  have seen : (final.effectiveChildren shiftedScene SceneGraph.root).map (·.val) = [1, 4, 5] := by
    decide +kernel
  refine ⟨found, seen, ?_, by decide +kernel⟩
  exact (commit_gives_seen_children linked (tidy_of_untouched untouched) found (.inl rfl)).1

end SceneMarkup.Pruning
