import SceneMarkup.Proofs.Growth
import SceneMarkup.Proofs.LoopSteps

namespace SceneMarkup.Scene.SceneGraph

/-!
# The loop behind a traversal

A traversal is a loop over a row of nodes that wait.  The last of the row is taken
out and listed, and its children join the row with the first child at the end, so
that it is next.  The loop follows whatever the child lists hold, and in a tree it
lists what the structure of the tree says: a node, then what is below its children.
-/

/-- A traversal in progress. -/
structure Tour where
  /-- The nodes listed so far, in order. -/
  listed : List NodeId
  /-- The nodes that wait; the last one is next. -/
  waiting : List NodeId
  deriving Repr, DecidableEq

/-- List the node that is next and let its children wait in its place. -/
def Tour.round? (graph : SceneGraph) (tour : Tour) : Option Tour :=
  tour.waiting.getLast?.map fun id =>
    { listed := tour.listed ++ [id]
      waiting := tour.waiting.dropLast ++ (graph.children id).reverse }

/-- The row that a stack stands for is the stack read from below. -/
theorem round?_reverse
    (graph : SceneGraph)
    (listed : List NodeId)
    (id : NodeId)
    (stack : List NodeId) :
    Tour.round? graph ⟨listed, (id :: stack).reverse⟩ =
      some ⟨listed ++ [id], (graph.children id ++ stack).reverse⟩ := by
  simp [Tour.round?]

namespace Linked

variable {graph : SceneGraph}

/-- With nodes waiting, the loop lists what a walk over the stack lists, and ends. -/
theorem tour_ends
    (linked : graph.Linked)
    (stack listed : List NodeId) :
    EndsAfter (Tour.round? graph) (graph.walk stack).length ⟨listed, stack.reverse⟩
      ⟨listed ++ graph.walk stack, []⟩ := by
  -- The walk recurs on what the round leaves waiting; its own measure makes the induction end.
  fun_induction walk graph stack generalizing listed with
  | case1 =>
      rw [List.append_nil]
      exact EndsAfter.rest rfl
  | case2 id rest ih =>
      rw [linked.below_val] at ih ⊢
      have further := ih (listed ++ [id])
      rw [List.append_assoc] at further
      exact further.first (round?_reverse graph listed id rest)

end Linked

/--
A traversal is the preorder of the tree.  The loop that starts with one node waiting
ends, after as many rounds as there are nodes to list; what it lists is the node, then
the traversals of its children one after another; and every node at or below the node
is listed once, and no other one.
-/
theorem traverse_is_preorder
    {graph : SceneGraph}
    (linked : graph.Linked)
    (id : NodeId) :
    EndsAfter (Tour.round? graph) (graph.traverse id).length ⟨[], [id]⟩
        ⟨graph.traverse id, []⟩ ∧
      graph.traverse id = id :: (graph.children id).flatMap graph.traverse ∧
      (graph.traverse id).Nodup ∧
      ∀ lower, lower ∈ graph.traverse id ↔ graph.Reaches id lower := by
  have ends := linked.tour_ends [id] []
  exact ⟨ends, linked.traverse_eq id, linked.traverse_nodup id, fun _ => linked.mem_traverse⟩

/-- A hall with two doors; the first one was given a knob, and a lock after the second was hung. -/
def doorsScene : SceneGraph :=
  ((((ofRoot "Hall").add 0 { name := "Left" }).add 1 { name := "Knob" }).add 0
    { name := "Right" }).add 1 { name := "Lock" }

theorem linked_doorsScene :
    doorsScene.Linked :=
  ((((linked_ofRoot "Hall").add (by decide) _).add (by decide) _).add (by decide) _).add
    (by decide) _

/-- The lock is listed before the second door, which is older. -/
theorem traverse_is_preorder_doorsScene :
    doorsScene.traverse 0 = [0, 1, 2, 4, 3] ∧
      EndsAfter (Tour.round? doorsScene) 5 ⟨[], [0]⟩ ⟨[0, 1, 2, 4, 3], []⟩ ∧
      (doorsScene.traverse 0).Nodup := by
  have listed : doorsScene.traverse 0 = [0, 1, 2, 4, 3] := by decide +kernel
  obtain ⟨ends, _, once, _⟩ := traverse_is_preorder linked_doorsScene 0
  rw [listed] at ends
  exact ⟨listed, ends, once⟩

end SceneMarkup.Scene.SceneGraph
