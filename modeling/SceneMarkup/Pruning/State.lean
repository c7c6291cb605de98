import SceneMarkup.Markup.NodeAttributes
import SceneMarkup.Report

namespace SceneMarkup.Pruning

open Scene

/-!
# The state of a pruning run

A run decides on a graph that it does not change.  For every node it keeps why
the node goes, which transform replaces its own, and onto which node it pushed
its transform; beside that, the order of removals and the reports made.
-/

/-- Why a node goes. -/
inductive Removal
  /-- It has no attribute of its own, or nothing is left below it. -/
  | empty
  /-- Its rotation cancels against a directly nested group. -/
  | doubleNegative
  /-- Its transform was folded into its only child. -/
  | transformOverlap
  /-- Nothing that can be drawn is below it. -/
  | noContent
  deriving Repr, DecidableEq

/-- The wording of a reason. -/
def Removal.description : Removal → String
  | .empty => "empty"
  | .doubleNegative => "double negative rotation"
  | .transformOverlap => "transform overlap"
  | .noContent => "lack of content"

/-- A transform that a node pushed onto another, and the replacement that stood there before. -/
structure Push where
  target : NodeId
  previous : Option Transform
  deriving Repr, DecidableEq

/-- What the run has decided about one node. -/
structure Mark where
  removal : Option Removal := none
  /-- Replaces the node's own transform. -/
  replacement : Option Transform := none
  pushed : Option Push := none
  deriving Repr, DecidableEq, Inhabited

/-- A run in progress. -/
structure State where
  /-- One mark for every node of the arena. -/
  marks : Array Mark
  /-- Removed nodes in the order they were removed. -/
  order : List NodeId := []
  /-- Reports made, the last one first. -/
  reports : List Report := []
  deriving Repr, DecidableEq

namespace State

/-- Nothing decided yet. -/
def start (graph : SceneGraph) : State where
  marks := Array.replicate graph.size {}

/-- What is decided about `id`. -/
def mark (state : State) (id : NodeId) : Mark :=
  state.marks.getD id default

/-- Why `id` goes, if it does. -/
def removal (state : State) (id : NodeId) : Option Removal :=
  (state.mark id).removal

/-- Change what is decided about `id`. -/
def modify (state : State) (id : NodeId) (change : Mark → Mark) : State :=
  { state with marks := state.marks.modify id change }

/-- Add a report. -/
def report (state : State) (entry : Report) : State :=
  { state with reports := entry :: state.reports }

/-- Give the reason for a removal; a node that stayed so far joins the order. -/
def setRemoval (state : State) (id : NodeId) (reason : Removal) : State :=
  let order := if (state.removal id).isNone then state.order ++ [id] else state.order
  { state.modify id fun mark => { mark with removal := some reason } with order := order }

/-- Remove a node and report it. -/
def remove (labels : Labels) (state : State) (id : NodeId) (reason : Removal) : State :=
  (state.report (.debug
    (Markup.tagOf (labels.graph.node id).kind ++ " [" ++ labels.name id ++ "] removed ("
      ++ reason.description ++ ")"))).setRemoval id reason

/-- Undo what the node pushed onto another. -/
def undoPush (state : State) (id : NodeId) : State :=
  match (state.mark id).pushed with
  | some push =>
      (state.modify id fun mark => { mark with pushed := none }).modify push.target
        fun mark => { mark with replacement := push.previous }
  | none => state

/-- Undo the removal of a node and any transform that it pushed down. -/
def restore (state : State) (id : NodeId) : State :=
  let undone := state.undoPush id
  if (undone.removal id).isSome then
    { undone.modify id fun mark => { mark with removal := none } with
      order := undone.order.filter fun removed => removed != id }
  else undone

/-- The transform that a node would have if the run ended now. -/
def transform (state : State) (graph : SceneGraph) (id : NodeId) : Transform :=
  (state.mark id).replacement.getD (graph.node id).transform

/-- Replace the transform of a node. -/
def setTransform (state : State) (id : NodeId) (transform : Transform) : State :=
  state.modify id fun mark => { mark with replacement := some transform }

/-- Children as their parent will see them: empty wrappers are looked through, folded ones stay. -/
def effectiveChildren (state : State) (graph : SceneGraph) (id : NodeId) : List (graph.Later id) :=
  (graph.below id).flatMap fun child =>
    match state.removal child.val with
    | some .empty => (effectiveChildren state graph child.val).map child.widen
    | some .doubleNegative => (effectiveChildren state graph child.val).map child.widen
    | some .noContent => []
    | some .transformOverlap => [child]
    | none => [child]
termination_by graph.size - id
decreasing_by all_goals exact child.closer

end State

end SceneMarkup.Pruning
