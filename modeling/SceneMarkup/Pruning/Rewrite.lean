import SceneMarkup.Pruning.State

namespace SceneMarkup.Pruning

open Scene Markup

/-!
# Deciding about one group

A group is looked at after everything below it.  The verdict says which rule
applies; carrying it out changes the state, and a child whose transform changed
is looked at once more.
-/

/-- Which rule applies to the group `id`. -/
inductive Verdict (graph : SceneGraph) (id : NodeId)
  /-- The group stays. -/
  | keep
  /-- The group goes, its children take its place. -/
  | empty
  /-- The group and its only child rotate against each other and do nothing else. -/
  | cancelBoth (child : graph.Later id)
  /-- The group rotates against its only child, which keeps its other attributes. -/
  | cancelOuter (child : graph.Later id)
  /-- The transform of the group moves onto its only child. -/
  | fold (child : graph.Later id)
  /-- Nothing below the group can be drawn. -/
  | sweep

/-- Groups that may go: all of them, unless groups are kept or a clip or morph targets need them. -/
def isDisposable (labels : Labels) (id : NodeId) : Bool :=
  !labels.options.keepGroups && (labels.graph.node id).kind.isGroup && !labels.isRelevant id

/-- Disposable groups that are still there. -/
def isEligible (labels : Labels) (state : State) (id : NodeId) : Bool :=
  isDisposable labels id && !labels.graph.isRemoved id && (state.removal id).isNone

/-- The attributes that a node would have if the run ended now. -/
def pendingAttributes (labels : Labels) (state : State) (id : NodeId) :
    Except Malformed Attributes :=
  attributesAt labels id (state.transform labels.graph id)

/-- A rotation with every angle rounded. -/
def roundedAngles (v : Vector) (precision : UInt32) : Vector :=
  v.map fun x => Decimal.roundTo x precision

/-- Whether two rotations are opposite after rounding. -/
def rotationsCancel (labels : Labels) (state : State) (outer inner : NodeId) : Bool :=
  let precision := labels.options.precision
  let opposite := (state.transform labels.graph inner).rotation.map fun x => -x
  (roundedAngles (state.transform labels.graph outer).rotation precision).agrees
    (roundedAngles opposite precision)

/-- Whether some node of the subtree can be drawn or must stay. -/
def hasContent (labels : Labels) (id : NodeId) : Bool :=
  (labels.graph.traverse id).any fun node =>
    !(labels.graph.node node).kind.isGroup || labels.isRelevant node

/-- The verdict when no rule about an only child applies. -/
def contentVerdict (labels : Labels) (id : NodeId) : Verdict labels.graph id :=
  if hasContent labels id then .keep else .sweep

/-- Whether the transform of a group may move onto its only child. -/
def mayFold
    (labels : Labels)
    (child : NodeId)
    (attributes childAttributes : Attributes) :
    Bool :=
  attributes.isOnlyTransform && !childAttributes.hasTransform
    && !(labels.graph.node child).kind.isBone && !labels.isRelevant child

/-- The verdict about a group with an only child, and the reports made on the way. -/
def onlyChildVerdict
    (labels : Labels)
    (state : State)
    (id : NodeId)
    (child : labels.graph.Later id)
    (attributes childAttributes : Attributes) :
    Verdict labels.graph id × List Report :=
  let cancels :=
    (labels.graph.node child.val).kind.isGroup && attributes.isOnly .rotation
      && rotationsCancel labels state id child.val
  let otherwise : Verdict labels.graph id :=
    if mayFold labels child.val attributes childAttributes then .fold child
    else contentVerdict labels id
  if cancels then
    if isDisposable labels child.val then
      (if childAttributes.isOnly .rotation then .cancelBoth child else .cancelOuter child, [])
    else
      (otherwise,
        [.debug ("rotation of [" ++ labels.name id ++ "] cancels against ["
          ++ labels.name child.val ++ "], which must stay. Skipped.")])
  else (otherwise, [])

/-- The verdict about an eligible group, and the reports made on the way. -/
def verdict (labels : Labels) (state : State) (id : NodeId) :
    Except Malformed (Verdict labels.graph id × List Report) :=
  (pendingAttributes labels state id).bind fun attributes =>
    let children := state.effectiveChildren labels.graph id
    if attributes.isEmpty || (labels.graph.children id).isEmpty then .ok (.empty, [])
    else if !labels.options.aggressive then
      .ok (if children.isEmpty then .empty else .keep, [])
    else
      match children with
      | [child] =>
          (pendingAttributes labels state child.val).map fun childAttributes =>
            onlyChildVerdict labels state id child attributes childAttributes
      | _ => .ok (contentVerdict labels id, [])

/-- Remove a whole subtree; nodes that were going already only change their reason. -/
def sweepSubtree (labels : Labels) (state : State) (id : NodeId) : State :=
  (labels.graph.traverse id).foldl
    (fun state node =>
      if (state.removal node).isNone then state.remove labels node .noContent
      else state.setRemoval node .noContent)
    state

/-- Let the inner of two opposite rotations go. -/
def dropRotation (graph : SceneGraph) (state : State) (id : NodeId) : State :=
  state.setTransform id { state.transform graph id with rotation := .zero }

/-- Move the transform of a group onto its child and remember what stood there. -/
def foldInto (labels : Labels) (state : State) (id child : NodeId) : State :=
  let previous := (state.mark child).replacement
  let moved := state.setTransform child (state.transform labels.graph id)
  let recorded := moved.modify id fun mark => { mark with pushed := some ⟨child, previous⟩ }
  recorded.remove labels id .transformOverlap

/-- Carry out what was decided about `id`. -/
def carryOut (labels : Labels) (state : State) (id : NodeId) : Verdict labels.graph id → State
  | .keep => state
  | .empty => state.remove labels id .empty
  | .cancelBoth child =>
      let outer := (state.restore child.val).remove labels id .doubleNegative
      outer.remove labels child.val .doubleNegative
  | .cancelOuter child =>
      let outer := (state.restore child.val).remove labels id .doubleNegative
      dropRotation labels.graph outer child.val
  | .fold child => foldInto labels state id child.val
  | .sweep => sweepSubtree labels state id

/-- The child that a decision moved, to be looked at once more. -/
def Verdict.moved? {graph : SceneGraph} {id : NodeId} :
    Verdict graph id → Option (graph.Later id)
  | .cancelOuter child => some child
  | .fold child => some child
  | _ => none

/-- The outcome of a step: the state reached, and the fault that stopped it, if one did. -/
structure Outcome where
  state : State
  fault : Option Malformed := none

/-- Decide about `id` if it is eligible, carry the decision out, and go on with a child moved. -/
def rewrite (labels : Labels) (state : State) (id : NodeId) : Outcome :=
  if !isEligible labels state id then ⟨state, none⟩
  else
    match verdict labels state id with
    | .error fault => ⟨state, some fault⟩
    | .ok (decision, reports) =>
        let done := carryOut labels (reports.foldl State.report state) id decision
        match decision.moved? with
        | some child => rewrite labels done child.val
        | none => ⟨done, none⟩
termination_by labels.graph.size - id
decreasing_by exact child.closer

/-- Decide about nodes one after another until a fault stops the run. -/
def rewriteAll (labels : Labels) (state : State) : List NodeId → Outcome
  | [] => ⟨state, none⟩
  | id :: rest =>
      let outcome := rewrite labels state id
      match outcome.fault with
      | some _ => outcome
      | none => rewriteAll labels outcome.state rest

end SceneMarkup.Pruning
