import SceneMarkup.Proofs.FixedPoint

namespace SceneMarkup.Pruning

open Scene Markup

/-!
# Folds are undone exactly

A group that is folded records what its target stood at before, and it may be restored
much later, when a group above cancels against it.  The decisions of a run are listed
with the states that they were made in, so that what a mark records can be compared
with the state before the last fold.  Nothing that is decided in between changes the
mark of a folded group or the target's record of it.
-/

attribute [ext] Mark

/-- One decision of a run: the node, the state that it was in, and what was decided. -/
structure Decision (labels : Labels) where
  id : NodeId
  before : State
  verdict : Verdict labels.graph id

/-- Whether the decision folds the node. -/
def Decision.folds {labels : Labels} (decision : Decision labels) (id : NodeId) : Bool :=
  match decision.verdict with
  | .fold _ => decision.id == id
  | _ => false

/-- What is decided when a node is looked at: about the node, and about a child that it moves. -/
def decisions (labels : Labels) (state : State) (id : NodeId) : List (Decision labels) :=
  if !isEligible labels state id then []
  else
    match verdict labels state id with
    | .error _ => []
    | .ok (decision, reports) =>
        let found := reports.foldl State.report state
        ⟨id, found, decision⟩ ::
          match decision.moved? with
          | some child => decisions labels (carryOut labels found id decision) child.val
          | none => []
termination_by labels.graph.size - id
decreasing_by exact child.closer

/-- What is decided when nodes are looked at one after another until a fault stops the run. -/
def allDecisions (labels : Labels) (state : State) : List NodeId → List (Decision labels)
  | [] => []
  | id :: rest =>
      decisions labels state id ++
        match (rewrite labels state id).fault with
        | some _ => []
        | none => allDecisions labels (rewrite labels state id).state rest

/-- The decisions, each made and carried out where the one before it led, lead from the first
state to the last; reports come in between. -/
inductive Follows (labels : Labels) : State → List (Decision labels) → State → Prop
  | rest (state : State) : Follows labels state [] state
  | next
      {state : State}
      {id : NodeId}
      {decision : Verdict labels.graph id}
      {reports : List Report}
      {further : List (Decision labels)}
      {final : State}
      (eligible : isEligible labels state id = true)
      (reached : verdict labels state id = .ok (decision, reports))
      (follows :
        Follows labels (carryOut labels (reports.foldl State.report state) id decision) further
          final) :
      Follows labels state (⟨id, reports.foldl State.report state, decision⟩ :: further) final

/-- The last fold of the node moved its transform onto the child. -/
def LastFold
    {labels : Labels}
    (events : List (Decision labels))
    (id : NodeId)
    (before : State)
    (child : labels.graph.Later id) :
    Prop :=
  ∃ earlier later,
    events = earlier ++ ⟨id, before, .fold child⟩ :: later ∧
      ∀ other ∈ later, other.folds id = false

/-- The marks still say what they have to say about a fold: where the target stood and what the
node was. -/
structure Remembers (state before : State) (id target : NodeId) : Prop where
  recorded : (state.mark id).pushed = some ⟨target, (before.mark target).replacement⟩
  own : before.mark id = { state.mark id with removal := none, pushed := none }
  stood : before.removal target = none
  still : (before.mark target).pushed = none

/-- Every folded node is remembered as it was before it was folded last. -/
def Recalls {labels : Labels} (events : List (Decision labels)) (state : State) : Prop :=
  ∀ id, state.removal id = some .transformOverlap →
    ∃ before child, LastFold events id before child ∧ Remembers state before id child.val

section Marks

variable {labels : Labels} {settled : NodeId → Prop} {state : State} {id other : NodeId}

/-- Restoring a node leaves the marks of nodes that are folded afterwards as they are. -/
theorem mark_restore_of_folded
    (linked : labels.graph.Linked)
    (sound : Sound labels settled state)
    (inside : id < labels.graph.size)
    (shows : state.shows id = true)
    (folded : (state.restore id).removal other = some .transformOverlap) :
    (state.restore id).mark other = state.mark other := by
  have known := sound.node id
  rcases State.shows_iff.mp shows with stays | removed
  · rw [State.restore_of_none stays (known.still_of_stays stays)]
  · obtain ⟨push, onto⟩ := known.folded removed
    obtain ⟨_, _, marks⟩ := mark_restore linked sound inside removed onto
    rw [State.removal, marks] at folded
    rw [marks]
    by_cases here : id = other
    · rw [if_pos here] at folded
      cases folded
    · rw [if_neg here] at folded ⊢
      by_cases atTarget : push.target = other
      · -- The target of a fold stays itself.
        rw [if_pos atTarget] at folded
        have stays := onto.stays
        rw [State.removal, atTarget] at stays
        rw [show (state.mark other).removal = some .transformOverlap from folded] at stays
        cases stays
      · rw [if_neg atTarget]

/-- A node that is folded when the outer of two opposite rotations has gone was so before. -/
theorem mark_outerGone_of_folded
    (linked : labels.graph.Linked)
    (sound : Sound labels settled state)
    (ready : Ready labels settled state id)
    {child : NodeId}
    (seen : child ∈ state.front labels.graph id)
    (folded : (outerGone labels state id child).removal other = some .transformOverlap) :
    id ≠ other ∧ (outerGone labels state id child).mark other = state.mark other := by
  obtain ⟨exposes, shows⟩ := (State.mem_front linked).mp seen
  have childInside := (linked.forward_of_reaches exposes.reaches exposes.differ).2
  have restored := sound.restore linked (ready.open_front linked exposes) childInside shows
  have marks :=
    State.mark_remove (restored.marked ready.inside) labels .doubleNegative other
  rw [State.removal, outerGone, marks] at folded
  rw [outerGone, marks]
  by_cases here : id = other
  · rw [if_pos here] at folded
    cases folded
  · rw [if_neg here] at folded ⊢
    exact ⟨here, mark_restore_of_folded linked sound childInside shows folded⟩

/-- A node that is folded after a decision was just folded, or its mark is the one from before. -/
theorem folded_or_mark_carryOut
    (linked : labels.graph.Linked)
    (sound : Sound labels settled state)
    (ready : Ready labels settled state id)
    (eligible : isEligible labels state id = true)
    {decision : Verdict labels.graph id}
    (justified : Justified labels state id decision)
    (folded : (carryOut labels state id decision).removal other = some .transformOverlap) :
    (id = other ∧ ∃ child, decision = .fold child) ∨
      (id ≠ other ∧ (carryOut labels state id decision).mark other = state.mark other) := by
  cases decision with
  | keep =>
      refine .inr ⟨?_, rfl⟩
      rintro rfl
      cases (isEligible_iff.mp eligible).2.2.symm.trans folded
  | empty =>
      have marks := State.mark_remove (sound.marked ready.inside) labels .empty other
      rw [carryOut] at folded ⊢
      rw [State.removal, marks] at folded
      rw [marks]
      by_cases here : id = other
      · rw [if_pos here] at folded
        cases folded
      · exact .inr ⟨here, if_neg here⟩
  | cancelBoth child =>
      have seen : child.val ∈ state.front labels.graph id := by simp [justified.1]
      obtain ⟨gone, _⟩ := outerGone_spec linked sound ready eligible seen
      have marks :=
        State.mark_remove (gone.marked child.property.2) labels .doubleNegative other
      rw [carryOut_cancelBoth_eq] at folded ⊢
      rw [State.removal, marks] at folded
      rw [marks]
      by_cases atChild : child.val = other
      · rw [if_pos atChild] at folded
        cases folded
      · rw [if_neg atChild] at folded ⊢
        exact .inr (mark_outerGone_of_folded linked sound ready seen folded)
  | cancelOuter child =>
      have seen : child.val ∈ state.front labels.graph id := by simp [justified.1]
      obtain ⟨gone, _, childStays, _⟩ := outerGone_spec linked sound ready eligible seen
      have marks := State.mark_setTransform (gone.marked child.property.2)
        { (outerGone labels state id child.val).transform labels.graph child.val with
          rotation := .zero } other
      rw [carryOut_cancelOuter_eq, dropRotation] at folded ⊢
      rw [State.removal, marks] at folded
      rw [marks]
      by_cases atChild : child.val = other
      · rw [if_pos atChild, ← atChild] at folded
        cases childStays.symm.trans folded
      · rw [if_neg atChild] at folded ⊢
        exact .inr (mark_outerGone_of_folded linked sound ready seen folded)
  | fold child =>
      have seen : child.val ∈ state.front labels.graph id := by simp [justified.1]
      obtain ⟨exposes, shows⟩ := (State.mem_front linked).mp seen
      have marks := State.mark_foldInto labels (sound.marked ready.inside)
        (sound.marked child.property.2) exposes.differ other
      by_cases here : id = other
      · exact .inl ⟨here, child, rfl⟩
      · rw [carryOut] at folded ⊢
        rw [State.removal, marks, if_neg here] at folded
        rw [marks, if_neg here]
        by_cases atChild : child.val = other
        · rw [if_pos atChild, ← atChild] at folded
          cases (justified.2.child_stays sound shows).symm.trans folded
        · exact .inr ⟨here, if_neg atChild⟩
  | sweep =>
      obtain ⟨_, _, marks⟩ :=
        State.sweepSubtree_spec sound.ordered (sound.marked_below linked ready.inside)
      rw [carryOut] at folded ⊢
      rw [State.removal, marks] at folded
      rw [marks]
      by_cases below : other ∈ labels.graph.traverse id
      · rw [if_pos below] at folded
        cases folded
      · refine .inr ⟨?_, if_neg below⟩
        rintro rfl
        exact below (linked.mem_traverse.mpr (SceneGraph.Reaches.refl id))

end Marks

section Log

variable {labels : Labels} {state : State} {id : NodeId}

/-- What is logged of a rewriting is its decision, and whatever the decision moves on to. -/
theorem decisions_of_verdict
    (eligible : isEligible labels state id = true)
    {decision : Verdict labels.graph id}
    {reports : List Report}
    (reached : verdict labels state id = .ok (decision, reports)) :
    decisions labels state id =
      ⟨id, reports.foldl State.report state, decision⟩ ::
        match decision.moved? with
        | some child =>
            decisions labels (carryOut labels (reports.foldl State.report state) id decision)
              child.val
        | none => [] := by
  rw [decisions, eligible, reached]
  rfl

/-- Decisions that follow on others follow with them. -/
theorem Follows.append
    {between final : State}
    {events further : List (Decision labels)}
    (first : Follows labels state events between)
    (second : Follows labels between further final) :
    Follows labels state (events ++ further) final := by
  induction first with
  | rest => exact second
  | next eligible reached _ ih => exact .next eligible reached (ih second)

/-- The decisions made when a node is looked at lead to the state that this ends in. -/
theorem follows_decisions
    (labels : Labels)
    (state : State)
    (id : NodeId) :
    Follows labels state (decisions labels state id) (rewrite labels state id).state := by
  fun_induction rewrite labels state id with
  | case1 state id ineligible =>
      rw [decisions, if_pos ineligible]
      exact .rest state
  | case2 state id eligible fault reached =>
      rw [decisions, if_neg eligible, reached]
      exact .rest state
  | case3 state id eligible decision reports reached done child moved ih =>
      have isEligible : isEligible labels state id = true := by simpa using eligible
      rw [decisions_of_verdict isEligible reached, moved]
      exact .next isEligible reached ih
  | case4 state id eligible decision reports reached done final =>
      have isEligible : isEligible labels state id = true := by simpa using eligible
      rw [decisions_of_verdict isEligible reached, final]
      exact .next isEligible reached (.rest done)

/-- The decisions of a run lead to the state that the run ends in. -/
theorem follows_allDecisions
    (labels : Labels)
    (state : State)
    (ids : List NodeId) :
    Follows labels state (allDecisions labels state ids) (rewriteAll labels state ids).state := by
  induction ids generalizing state with
  | nil => exact .rest state
  | cons id rest ih =>
      have first := follows_decisions labels state id
      rw [allDecisions, rewriteAll]
      cases (rewrite labels state id).fault with
      | some fault => simpa using first
      | none => exact first.append (ih _)

end Log

section Runs

variable
  {labels : Labels}
  {settled : NodeId → Prop}
  {state : State}
  {id : NodeId}
  {events : List (Decision labels)}

/-- A fold stays the last one when nothing folds the node after it. -/
theorem LastFold.append
    {before : State}
    {child : labels.graph.Later id}
    (last : LastFold events id before child)
    {further : List (Decision labels)}
    (unfolded : ∀ other ∈ further, other.folds id = false) :
    LastFold (events ++ further) id before child := by
  obtain ⟨earlier, later, split, none⟩ := last
  refine ⟨earlier, later ++ further, by simp [split], fun other member => ?_⟩
  rcases List.mem_append.mp member with among | among
  · exact none other among
  · exact unfolded other among

theorem Remembers.of_mark
    {before other : State}
    {target : NodeId}
    (remembers : Remembers state before id target)
    (mark : other.mark id = state.mark id) :
    Remembers other before id target where
  recorded := by rw [mark, remembers.recorded]
  own := by rw [mark, remembers.own]
  stood := remembers.stood
  still := remembers.still

theorem Recalls.of_mark
    (recalls : Recalls events state)
    {other : State}
    (mark : other.mark = state.mark) :
    Recalls events other := by
  intro id folded
  rw [State.removal, mark] at folded
  obtain ⟨before, child, last, remembers⟩ := recalls id folded
  exact ⟨before, child, last, remembers.of_mark (congrFun mark id)⟩

/-- Decisions that fold nothing leave what is recalled. -/
theorem Recalls.append
    (recalls : Recalls events state)
    {further : List (Decision labels)}
    (unfolded : ∀ other ∈ further, ∀ id, other.folds id = false) :
    Recalls (events ++ further) state := by
  intro id folded
  obtain ⟨before, child, last, remembers⟩ := recalls id folded
  exact ⟨before, child, last.append fun other member => unfolded other member id, remembers⟩

/-- A fold records where its target stands, and other decisions leave that record alone. -/
theorem Recalls.carryOut
    (recalls : Recalls events state)
    (linked : labels.graph.Linked)
    (sound : Sound labels settled state)
    (ready : Ready labels settled state id)
    (eligible : isEligible labels state id = true)
    {decision : Verdict labels.graph id}
    (justified : Justified labels state id decision) :
    Recalls (events ++ [⟨id, state, decision⟩]) (carryOut labels state id decision) := by
  intro other folded
  rcases folded_or_mark_carryOut linked sound ready eligible justified folded with
    ⟨rfl, child, rfl⟩ | ⟨apart, same⟩
  · have stays := (isEligible_iff.mp eligible).2.2
    have seen : child.val ∈ state.front labels.graph id := by simp [justified.1]
    obtain ⟨exposes, shows⟩ := (State.mem_front linked).mp seen
    have childStays := justified.2.child_stays sound shows
    have own :
        (Pruning.carryOut labels state id (.fold child)).mark id =
          { state.mark id with
            removal := some .transformOverlap
            pushed := some ⟨child.val, (state.mark child.val).replacement⟩ } := by
      rw [Pruning.carryOut, State.mark_foldInto labels (sound.marked ready.inside)
        (sound.marked child.property.2) exposes.differ, if_pos rfl]
    have last : LastFold (events ++ [⟨id, state, .fold child⟩]) id state child :=
      ⟨events, [], rfl, by simp⟩
    refine ⟨state, child, last, ?_⟩
    constructor
    · rw [own]
    · rw [own]
      exact Mark.ext stays rfl ((sound.node id).still_of_stays stays)
    · exact childStays
    · exact (sound.node child.val).still_of_stays childStays
  · obtain ⟨before, child, last, remembers⟩ :=
      recalls other ((removal_of_mark same).symm.trans folded)
    have unfolded :
        ∀ decided ∈ [(⟨id, state, decision⟩ : Decision labels)], decided.folds other = false := by
      simp only [List.mem_singleton, forall_eq]
      cases decision <;> simp [Decision.folds, apart]
    exact ⟨before, child, last.append unfolded, remembers.of_mark same⟩

/-- Nothing is folded when a steady group is looked at. -/
theorem decisions_of_steady
    (steady : isEligible labels state id = true → Steady labels state id) :
    ∀ decision ∈ decisions labels state id, ∀ other, decision.folds other = false := by
  cases eligible : isEligible labels state id with
  | false =>
      rw [decisions, eligible]
      simp
  | true =>
      obtain ⟨reports, reached⟩ := verdict_of_steady (steady eligible)
      rw [decisions_of_verdict eligible reached]
      simp [Verdict.moved?, Decision.folds]

/-- Looking at a node keeps what the marks recall. -/
theorem Recalls.rewrite
    (recalls : Recalls events state)
    (linked : labels.graph.Linked)
    (sound : Sound labels settled state)
    (ready : Ready labels settled state id) :
    Recalls (events ++ decisions labels state id) (rewrite labels state id).state := by
  induction id using linked.descendantsFirst generalizing settled state events with
  | step id ih =>
      cases eligible : isEligible labels state id with
      | false =>
          rw [Pruning.rewrite, decisions, eligible]
          simpa using recalls
      | true =>
          cases reached : verdict labels state id with
          | error fault =>
              rw [Pruning.rewrite, decisions, eligible, reached]
              simpa using recalls
          | ok answer =>
              obtain ⟨decision, reports⟩ := answer
              obtain ⟨mark, soundHere, readyHere, eligibleHere, again⟩ :=
                after_reports linked sound ready eligible reached
              have justified := verdict_justified again
              rw [rewrite_of_verdict eligible reached, decisions_of_verdict eligible reached,
                List.append_cons]
              generalize reports.foldl State.report state = found at *
              have done :=
                (recalls.of_mark mark).carryOut linked soundHere readyHere eligibleHere justified
              cases final : decision.moved? with
              | none =>
                  rw [proceed, final]
                  simpa using done
              | some child =>
                  rw [proceed, final]
                  cases decision with
                  | cancelOuter same =>
                      cases final
                      have seen : child.val ∈ found.front labels.graph id := by
                        simp [justified.1]
                      have exposes := ((State.mem_front linked).mp seen).1
                      obtain ⟨_, after, readyNext, _⟩ :=
                        carryOut_cancelOuter linked soundHere readyHere eligibleHere seen
                          justified.2.1.group
                      exact ih child.val exposes.reaches exposes.differ done after readyNext
                  | fold same =>
                      -- The child was settled already, and it is steady where it stands now.
                      cases final
                      obtain ⟨_, after, childSettled⟩ :=
                        carryOut_fold linked soundHere readyHere eligibleHere justified.1
                          justified.2
                      have steady := (after.node child.val).steady (.inl childSettled)
                      obtain ⟨reportsThen, kept⟩ := rewrite_of_steady steady
                      show Recalls (_ ++ decisions labels _ child.val)
                        (Pruning.rewrite labels _ child.val).state
                      rw [kept]
                      exact (done.append (decisions_of_steady steady)).of_mark
                        (State.mark_reports reportsThen)
                  | keep => cases final
                  | empty => cases final
                  | cancelBoth child => cases final
                  | sweep => cases final

/-- Looking at nodes in turn keeps what the marks recall. -/
theorem recalls_rewriteAll
    (linked : labels.graph.Linked)
    {before visited after : List NodeId}
    (whole : labels.graph.innermostFirst SceneGraph.root = before ++ (visited ++ after))
    (sound : Sound labels (· ∈ before) state)
    (recalls : Recalls events state)
    (faultless : (rewriteAll labels state visited).fault = none) :
    Sound labels (· ∈ before ++ visited) (rewriteAll labels state visited).state ∧
      Recalls (events ++ allDecisions labels state visited)
        (rewriteAll labels state visited).state := by
  induction visited generalizing before state events with
  | nil => simpa [rewriteAll, allDecisions] using ⟨sound, recalls⟩
  | cons id rest ih =>
      have ready : Ready labels (· ∈ before) state id := ready_of_split linked state whole
      have done := recalls.rewrite linked sound ready
      rw [rewriteAll] at faultless
      rw [rewriteAll, allDecisions]
      cases fault : (rewrite labels state id).fault with
      | some reason => simp [fault] at faultless
      | none =>
          simp only [fault] at faultless
          have further :
              labels.graph.innermostFirst SceneGraph.root =
                (before ++ [id]) ++ (rest ++ after) := by
            simp [whole]
          have ended := ih further (sound_next linked sound ready fault) done faultless
          simpa [List.append_assoc] using ended

/-- Two folded nodes never share a target: of two above it, one would be looked through. -/
theorem FoldedOnto.target_injective
    (linked : labels.graph.Linked)
    {first second : NodeId}
    {firstPush secondPush : Push}
    (firstFolded : state.removal first = some .transformOverlap)
    (secondFolded : state.removal second = some .transformOverlap)
    (firstOnto : FoldedOnto labels state first firstPush)
    (secondOnto : FoldedOnto labels state second secondPush)
    (same : firstPush.target = secondPush.target) :
    first = second := by
  have firstExposes := firstOnto.exposes linked
  have secondExposes := secondOnto.exposes linked
  have opaqueTo :
      ∀ node, state.removal node = some .transformOverlap → state.clears node = false := by
    intro node folded
    rw [State.clears, folded]
  rw [same] at firstExposes
  by_contra differ
  rcases linked.reaches_comparable firstExposes.reaches secondExposes.reaches with down | up
  · have clears :=
      firstExposes.between second down differ secondExposes.reaches secondExposes.differ
    cases (opaqueTo second secondFolded).symm.trans clears
  · have clears :=
      secondExposes.between first up (Ne.symm differ) firstExposes.reaches firstExposes.differ
    cases (opaqueTo first firstFolded).symm.trans clears

/-- Restoring a folded node brings its marks and those of its target back. -/
theorem Remembers.restore
    {before : State}
    {push : Push}
    (remembers : Remembers state before id push.target)
    (linked : labels.graph.Linked)
    (sound : Sound labels settled state)
    (inside : id < labels.graph.size)
    (folded : state.removal id = some .transformOverlap)
    (onto : FoldedOnto labels state id push) :
    (state.restore id).mark id = before.mark id ∧
      (state.restore id).mark push.target = before.mark push.target ∧
      ∀ other, other ≠ id → other ≠ push.target →
        (state.restore id).mark other = state.mark other := by
  obtain ⟨_, _, marks⟩ := mark_restore linked sound inside folded onto
  have apart := (onto.exposes linked).differ
  have previous : push.previous = (before.mark push.target).replacement := by
    have same := onto.recorded.symm.trans remembers.recorded
    exact congrArg Push.previous (Option.some.inj same)
  refine ⟨by rw [marks, if_pos rfl, remembers.own], ?_, fun other notSelf notTarget => ?_⟩
  · rw [marks, if_neg apart, if_pos rfl, previous]
    have still := (sound.node push.target).still_of_stays onto.stays
    exact Mark.ext (onto.stays.trans remembers.stood.symm) rfl
      (still.trans remembers.still.symm)
  · rw [marks, if_neg (Ne.symm notSelf), if_neg (Ne.symm notTarget)]

/-- What was folded onto its target: the node sees this descendant only, and the descendant stands
where the node itself would stand. -/
structure MovedOnto (labels : Labels) (state : State) (id : NodeId) (push : Push) : Prop where
  recorded : (state.mark id).pushed = some push
  below : labels.graph.Reaches id push.target
  apart : push.target ≠ id
  alone : (state.effectiveChildren labels.graph id).map (·.val) = [push.target]
  placed : (state.mark push.target).replacement = some (state.transform labels.graph id)

/--
Folds are undone exactly.  After any number of nodes that a run looks at without a
fault, the decisions made have led to the state, and the order lists every removed
node once.  A folded node has moved its transform onto the one descendant that it
sees, as no other folded node has.  Restoring it brings its marks and the target's
back to what they were just before it was folded last, and leaves all other marks
alone.
-/
theorem folds_are_undone
    {labels : Labels}
    (linked : labels.graph.Linked)
    {visited : List NodeId}
    (begun : visited <+: labels.graph.innermostFirst SceneGraph.root)
    {state : State}
    (reached : rewriteAll labels (State.start labels.graph) visited = ⟨state, none⟩) :
    let events := allDecisions labels (State.start labels.graph) visited
    Follows labels (State.start labels.graph) events state ∧
      (state.order.Nodup ∧ ∀ id, id ∈ state.order ↔ (state.removal id).isSome = true) ∧
      (∀ id, state.removal id = some .transformOverlap →
        ∃ push before child,
          MovedOnto labels state id push ∧
            LastFold events id before child ∧
            child.val = push.target ∧
            (state.restore id).mark id = before.mark id ∧
            (state.restore id).mark push.target = before.mark push.target ∧
            ∀ other, other ≠ id → other ≠ push.target →
              (state.restore id).mark other = state.mark other) ∧
      ∀ first second firstPush secondPush,
        state.removal first = some .transformOverlap →
          state.removal second = some .transformOverlap →
          (state.mark first).pushed = some firstPush →
          (state.mark second).pushed = some secondPush →
          firstPush.target = secondPush.target → first = second := by
  intro events
  have follows := follows_allDecisions labels (State.start labels.graph) visited
  rw [reached] at follows
  obtain ⟨after, whole⟩ := begun
  have begins : Sound labels (· ∈ []) (State.start labels.graph) :=
    (sound_start labels).resettle (fun _ contrary => by cases contrary) fun _ _ => .inl id
  have nothing : Recalls ([] : List (Decision labels)) (State.start labels.graph) := by
    intro id folded
    rw [State.removal, mark_start] at folded
    cases folded
  have walk : labels.graph.innermostFirst SceneGraph.root = [] ++ (visited ++ after) := whole.symm
  obtain ⟨sound, recalls⟩ :=
    recalls_rewriteAll linked walk begins nothing (by rw [reached])
  simp only [reached, List.nil_append] at sound recalls
  refine ⟨follows, ⟨sound.ordered.nodup, sound.ordered.listed⟩, fun id folded => ?_,
    fun first second firstPush secondPush firstFolded secondFolded firstPushed secondPushed
      same => ?_⟩
  · obtain ⟨push, onto⟩ := (sound.node id).folded folded
    obtain ⟨before, child, last, remembers⟩ := recalls id folded
    have target : child.val = push.target := by
      have same := remembers.recorded.symm.trans onto.recorded
      exact congrArg Push.target (Option.some.inj same)
    have exposes := onto.exposes linked
    have inside := Nat.lt_trans child.property.1 child.property.2
    obtain ⟨own, atTarget, others⟩ :=
      (target ▸ remembers).restore linked sound inside folded onto
    exact ⟨push, before, child,
      ⟨onto.recorded, exposes.reaches, Ne.symm exposes.differ, onto.front, onto.moved⟩, last,
      target, own, atTarget, others⟩
  · obtain ⟨push, onto⟩ := (sound.node first).folded firstFolded
    obtain ⟨otherPush, otherOnto⟩ := (sound.node second).folded secondFolded
    have firstSame := Option.some.inj (onto.recorded.symm.trans firstPushed)
    have secondSame := Option.some.inj (otherOnto.recorded.symm.trans secondPushed)
    refine onto.target_injective linked firstFolded secondFolded otherOnto ?_
    rw [firstSame, secondSame, same]

end Runs

/-- A group that turns about the first axis, one in it that turns back and steps aside, and a box
in that one. -/
def turnedBackScene : SceneGraph :=
  (((SceneGraph.ofRoot "Scene").add 0
    { name := "Outer", transform := { Transform.identity with rotation := ⟨1.5, 0.0, 0.0⟩ } }).add
    1 { name := "Inner", transform := { oneStep with rotation := ⟨-1.5, 0.0, 0.0⟩ } }).add 2
    { name := "Box", kind := .mesh }

theorem linked_turnedBackScene :
    turnedBackScene.Linked :=
  (((SceneGraph.linked_ofRoot "Scene").add (by decide) _).add (by decide) _).add (by decide) _

/-- The inner group is folded onto the box, restored as the outer one cancels against it, and
folded again with another transform; what it recorded then is what stood there. -/
theorem folds_are_undone_turnedBackScene :
    let labels := Labels.ofGraph turnedBackScene {} { aggressive := true }
    let state := (rewriteAll labels (State.start labels.graph) [3, 2, 1]).state
    let events := allDecisions labels (State.start labels.graph) [3, 2, 1]
    events.map (·.id) = [2, 1, 2] ∧ state.order = [1, 2] ∧
      (state.mark 3).replacement = some oneStep ∧
      ∃ before child, LastFold events 2 before child ∧
        (state.restore 2).mark child.val = before.mark child.val := by
  intro labels state events
  have linked : labels.graph.Linked := linked_turnedBackScene
  have begun : [3, 2, 1] <+: labels.graph.innermostFirst SceneGraph.root := by decide +kernel
  have faultless :
      (rewriteAll labels (State.start labels.graph) [3, 2, 1]).fault = none := by
    decide +kernel
  have reached :
      rewriteAll labels (State.start labels.graph) [3, 2, 1] = ⟨state, none⟩ := by
    rw [← faultless]
  obtain ⟨_, _, undone, _⟩ := folds_are_undone linked begun reached
  have folded : state.removal 2 = some .transformOverlap := by decide +kernel
  obtain ⟨_, before, child, _, last, target, _, atTarget, _⟩ := undone 2 folded
  exact ⟨by decide +kernel, by decide +kernel, by decide +kernel, before, child, last,
    target ▸ atTarget⟩

end SceneMarkup.Pruning
