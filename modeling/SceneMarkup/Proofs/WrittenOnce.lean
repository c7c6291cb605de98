import SceneMarkup.Proofs.DrivenNames
import SceneMarkup.Proofs.Layout

namespace SceneMarkup.Component

open Scene Markup Pruning

/-!
# Every node is written once

The body is read from the text of the module.  Together with what pruning may
remove, this says that a conversion loses no node, repeats none and keeps their
order, and that what a clip drives is written under a name of its own.
-/

/-- A node that is reached with no bone above it is shown unless it is removed. -/
theorem mem_shown
    {graph pruned : SceneGraph}
    {id : NodeId}
    (linked : graph.Linked)
    (reached : graph.Reaches SceneGraph.root id)
    (free : ∀ upper, graph.Reaches upper id → upper ≠ id →
      (graph.node upper).kind.isBone = false)
    (present : ¬ pruned.isRemoved id = true) :
    id ∈ (visible graph).filter fun id => !pruned.isRemoved id := by
  refine List.mem_filter.mpr ⟨(mem_visible linked).mpr ⟨reached, free⟩, ?_⟩
  rw [Bool.not_eq_true', ← Bool.not_eq_true]
  exact present

/--
A conversion loses no node, repeats none and keeps their order.  Reading the body
of the module finds one element each, in the order of the traversal, for the nodes
of the scene that are not strictly below a bone and survive pruning; every node is
among them that is no plain group, that a clip drives, or that blends shapes.
-/
theorem convert_writes_each_once
    {fileName : String}
    {graph : SceneGraph}
    {options : Options}
    {text : String}
    (linked : graph.Linked)
    (untouched : graph.Untouched)
    (converted : (convert fileName graph options).result = .ok text) :
    let index := InstanceIndex.analyze graph options
    let labels := Labels.ofGraph graph index options
    let pruned := (convert fileName graph options).graph
    let shown := (visible graph).filter fun id => !pruned.isRemoved id
    ∃ elements,
      readBody? text = some elements ∧
        List.Forall₂
          (fun id heading => headingAt labels id (pruned.node id).transform = .ok heading)
          shown (headingsOf elements) ∧
        shown.Nodup ∧
        shown.Sublist (graph.traverse SceneGraph.root) ∧
        (∀ id ∈ shown, ∀ upper, graph.Reaches upper id → upper ≠ id →
          (graph.node upper).kind.isBone = false) ∧
        (∀ id, graph.Reaches SceneGraph.root id →
          (∀ upper, graph.Reaches upper id → upper ≠ id →
            (graph.node upper).kind.isBone = false) →
          (graph.node id).kind.isGroup = false ∨ labels.isTarget id = true ∨
            (graph.node id).morphTargets.isSome = true →
          id ∈ shown) := by
  intro index labels pruned shown
  obtain ⟨final, elements, rendered⟩ := exists_rendered linked converted
  refine ⟨elements, rendered.reads.1, ?_, ?_, ?_, ?_, ?_⟩
  · exact rendered.headings linked (intact_of_untouched untouched)
  · exact ((linked.traverse_nodup _).filter _).filter _
  · exact List.filter_sublist.trans List.filter_sublist
  · intro id member
    exact ((mem_visible linked).mp (List.mem_filter.mp member).1).2
  · intro id reached free needed
    refine mem_shown linked reached free fun removed => ?_
    obtain ⟨_, group, notRelevant⟩ :=
      isDisposable_iff.mp (rendered.disposable linked untouched removed)
    have isGroup : (graph.node id).kind.isGroup = true := group
    rw [Labels.isRelevant, Bool.or_eq_false_iff] at notRelevant
    have noShapes : (graph.node id).morphTargets.isSome = false := notRelevant.2
    rcases needed with notGroup | target | shapes
    · rw [isGroup] at notGroup
      cases notGroup
    · rw [notRelevant.1] at target
      cases target
    · rw [noShapes] at shapes
      cases shapes

/-- A group of a body and a skeleton that holds a sword, beside a floor. -/
def riggedScene : SceneGraph :=
  (((((SceneGraph.ofRoot "Scene").add 0 { name := "Wrapper" }).add 1
    { name := "Body", kind := .mesh }).add 1 { name := "Hip", kind := .bone }).add 3
    { name := "Sword", kind := .mesh }).add 0 { name := "Floor", kind := .mesh }

theorem linked_riggedScene : riggedScene.Linked ∧ riggedScene.Untouched :=
  ⟨(((((SceneGraph.linked_ofRoot "Scene").add (by decide) _).add (by decide) _).add
      (by decide) _).add (by decide) _).add (by decide) _,
    SceneGraph.untouched_of_not_mem (by decide)⟩

/-- Of the rigged scene the body, the hip and the floor are written, in this order. -/
theorem convert_writes_each_once_riggedScene :
    let labels := Labels.ofGraph riggedScene (InstanceIndex.analyze riggedScene {}) {}
    let pruned := (convert "rig.glb" riggedScene {}).graph
    ∃ text elements,
      (convert "rig.glb" riggedScene {}).result = .ok text ∧
        readBody? text = some elements ∧
        List.Forall₂
          (fun id heading => headingAt labels id (pruned.node id).transform = .ok heading)
          [2, 3, 5] (headingsOf elements) := by
  intro labels pruned
  obtain ⟨linked, untouched⟩ := linked_riggedScene
  have succeeds : (convert "rig.glb" riggedScene {}).result.isOk = true := by
    decide +kernel
  obtain ⟨text, converted⟩ := exists_eq_ok succeeds
  obtain ⟨elements, reads, headings, _⟩ := convert_writes_each_once linked untouched converted
  have shown :
      ((visible riggedScene).filter fun id => !pruned.isRemoved id) = [2, 3, 5] := by
    decide +kernel
  rw [shown] at headings
  exact ⟨text, elements, converted, reads, headings⟩

end SceneMarkup.Component
