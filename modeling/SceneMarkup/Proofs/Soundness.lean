import SceneMarkup.Proofs.Verdicts

namespace SceneMarkup.Pruning

open Scene Markup

/-!
# What holds between two decisions

Some nodes are settled: they were looked at, and what was decided about them
still stands.  Soundness is said node by node and looks at the subtree of the
node only.  A step at some node changes marks in its subtree; nodes elsewhere
stay sound, because whatever is above has not been settled or is looked through.
-/

/-- What is known about a node that folded its transform onto another. -/
structure FoldedOnto (labels : Labels) (state : State) (id : NodeId) (push : Push) : Prop where
  recorded : (state.mark id).pushed = some push
  front : state.front labels.graph id = [push.target]
  stays : state.removal push.target = none
  moved : (state.mark push.target).replacement = some (state.transform labels.graph id)
  bare : isBare labels id = true
  moving : printedTransform labels (state.transform labels.graph id) ≠ []
  resting : printedTransform labels (State.placeOf labels.graph push.target push.previous) = []
  expressible : isExpressible (labels.graph.node push.target) = true
  notBone : (labels.graph.node push.target).kind.isBone = false
  notRelevant : labels.isRelevant push.target = false
  laden :
    labels.graph.isRemoved push.target = false → isDisposable labels push.target = true →
      isBare labels push.target = false

/-- What the marks of a node stand for. -/
structure SoundAt
    (labels : Labels)
    (settled : NodeId → Prop)
    (state : State)
    (id : NodeId) :
    Prop where
  disposable : (state.removal id).isSome = true → isDisposable labels id = true
  recorded :
    ∀ push, (state.mark id).pushed = some push →
      state.removal id = some .transformOverlap ∨ state.removal id = some .noContent
  folded : state.removal id = some .transformOverlap → ∃ push, FoldedOnto labels state id push
  swept :
    state.removal id = some .noContent →
      ∀ child ∈ labels.graph.children id, state.removal child = some .noContent
  pending : ¬ settled id → state.removal id = none ∨ state.clears id = true
  steady : settled id → isEligible labels state id = true → Steady labels state id

/-- A state between two decisions. -/
structure Sound (labels : Labels) (settled : NodeId → Prop) (state : State) : Prop where
  size : state.marks.size = labels.graph.size
  ordered : state.Ordered
  node : ∀ id, SoundAt labels settled state id

/-- Whatever is above the node is unsettled or looked through. -/
def Open (labels : Labels) (settled : NodeId → Prop) (state : State) (id : NodeId) : Prop :=
  ∀ upper, labels.graph.Reaches upper id → upper ≠ id →
    ¬ settled upper ∨ state.clears upper = true

section Frames

variable {labels : Labels} {settled : NodeId → Prop} {state other : State} {id : NodeId}

/-- Equal marks give equal reasons. -/
theorem removal_of_mark
    (same : other.mark id = state.mark id) :
    other.removal id = state.removal id := by
  rw [State.removal, State.removal, same]

/-- Equal replacements give equal transforms. -/
theorem transform_of_replacement
    {graph : SceneGraph}
    (same : (other.mark id).replacement = (state.mark id).replacement) :
    other.transform graph id = state.transform graph id := by
  rw [State.transform, State.transform, same]

theorem clears_of_removal
    (same : other.removal id = state.removal id) :
    other.clears id = state.clears id := by
  rw [State.clears, State.clears, same]

theorem isEligible_of_removal
    (same : other.removal id = state.removal id) :
    isEligible labels other id = isEligible labels state id := by
  rw [isEligible, isEligible, same]

/-- A group stays steady if it sees the same and, being bare, nothing that it is compared with
moves. -/
theorem Steady.transfer
    (steady : Steady labels state id)
    (front : other.front labels.graph id = state.front labels.graph id)
    (placed :
      isBare labels id = true →
        other.transform labels.graph id = state.transform labels.graph id ∧
          ∀ child, state.front labels.graph id = [child] →
            other.transform labels.graph child = state.transform labels.graph child) :
    Steady labels other id where
  expressible := steady.expressible
  prints := by
    intro bare
    rw [(placed bare).1]
    exact steady.prints bare
  holds := steady.holds
  sees := by
    rw [front]
    exact steady.sees
  content := steady.content
  childExpressible := by
    rw [front]
    exact steady.childExpressible
  uncancelled := by
    intro aggressive child alone cancels
    rw [front] at alone
    obtain ⟨own, seen⟩ := placed cancels.bare
    refine steady.uncancelled aggressive child alone
      ⟨cancels.group, cancels.bare, own ▸ cancels.turning, ?_, cancels.disposable,
        cancels.aggressive⟩
    have opposite := cancels.opposite
    rw [rotationsCancel, own, seen child alone] at opposite
    exact opposite
  unfolded := by
    intro aggressive child alone folds
    rw [front] at alone
    obtain ⟨own, seen⟩ := placed folds.bare
    exact steady.unfolded aggressive child alone
      ⟨folds.bare, own ▸ folds.moving, seen child alone ▸ folds.resting, folds.expressible,
        folds.notBone, folds.notRelevant, folds.aggressive⟩

/-- A fold stands as long as the marks below and at the node stand. -/
theorem FoldedOnto.congr
    (linked : labels.graph.Linked)
    {push : Push}
    (folded : FoldedOnto labels state id push)
    (same : ∀ lower, labels.graph.Reaches id lower → other.mark lower = state.mark lower) :
    FoldedOnto labels other id push := by
  have front : other.front labels.graph id = state.front labels.graph id :=
    State.front_congr linked fun lower reaches _ => removal_of_mark (same lower reaches)
  have atTarget : other.mark push.target = state.mark push.target := by
    refine same push.target ?_
    have seen : push.target ∈ state.front labels.graph id := by simp [folded.front]
    exact ((State.mem_front linked).mp seen).1.reaches
  have own := same id (SceneGraph.Reaches.refl id)
  have placed : other.transform labels.graph id = state.transform labels.graph id :=
    transform_of_replacement (by rw [own])
  exact
    { recorded := by rw [own, folded.recorded]
      front := front.trans folded.front
      stays := (removal_of_mark atTarget).trans folded.stays
      moved := by rw [atTarget, placed, folded.moved]
      bare := folded.bare
      moving := placed ▸ folded.moving
      resting := folded.resting
      expressible := folded.expressible
      notBone := folded.notBone
      notRelevant := folded.notRelevant
      laden := folded.laden }

/-- The target of a fold stands where the folded node stands. -/
theorem FoldedOnto.transform_target
    {push : Push}
    (folded : FoldedOnto labels state id push) :
    state.transform labels.graph push.target = state.transform labels.graph id := by
  rw [State.transform, folded.moved]
  rfl

/-- A node stays sound if the marks below and at it stand. -/
theorem SoundAt.congr
    (linked : labels.graph.Linked)
    {settledAfter : NodeId → Prop}
    (sound : SoundAt labels settled state id)
    (same : ∀ lower, labels.graph.Reaches id lower → other.mark lower = state.mark lower)
    (alike : settledAfter id ↔ settled id) :
    SoundAt labels settledAfter other id := by
  have own := same id (SceneGraph.Reaches.refl id)
  have removal := removal_of_mark own
  refine ⟨?_, ?_, ?_, ?_, ?_, ?_⟩
  · rw [removal]
    exact sound.disposable
  · rw [own, removal]
    exact sound.recorded
  · intro folded
    obtain ⟨push, onto⟩ := sound.folded (removal ▸ folded)
    exact ⟨push, onto.congr linked same⟩
  · intro swept child member
    rw [removal_of_mark (same child (SceneGraph.Reaches.child member))]
    exact sound.swept (removal ▸ swept) child member
  · intro unsettled
    rw [clears_of_removal removal, removal]
    exact sound.pending (mt alike.mpr unsettled)
  · intro isSettled eligible
    rw [isEligible_of_removal removal] at eligible
    refine (sound.steady (alike.mp isSettled) eligible).transfer
      (State.front_congr linked fun lower reaches _ => removal_of_mark (same lower reaches)) ?_
    intro _
    refine ⟨transform_of_replacement (by rw [own]), fun child alone => ?_⟩
    have seen : child ∈ state.front labels.graph id := by simp [alone]
    have reaches := ((State.mem_front linked).mp seen).1.reaches
    exact transform_of_replacement (by rw [same child reaches])

/-- A node that is looked through is sound if it may go and has pushed nothing. -/
theorem SoundAt.of_clears
    (clears : state.clears id = true)
    (disposable : isDisposable labels id = true)
    (still : (state.mark id).pushed = none) :
    SoundAt labels settled state id := by
  have cases := State.clears_iff.mp clears
  refine ⟨fun _ => disposable, ?_, ?_, ?_, fun _ => .inr clears, ?_⟩
  · intro push pushed
    rw [still] at pushed
    cases pushed
  · intro folded
    rcases cases with empty | cancelled <;> simp_all
  · intro swept
    rcases cases with empty | cancelled <;> simp_all
  · intro _ eligible
    have removed := State.isSome_of_clears clears
    rw [isEligible, Bool.and_eq_true, Option.isNone_iff_eq_none] at eligible
    rw [eligible.2] at removed
    cases removed

/-- A node that is neither folded nor swept took part in no push. -/
theorem SoundAt.still
    (sound : SoundAt labels settled state id)
    (notFolded : state.removal id ≠ some .transformOverlap)
    (notSwept : state.removal id ≠ some .noContent) :
    (state.mark id).pushed = none := by
  cases pushed : (state.mark id).pushed with
  | none => rfl
  | some push =>
      rcases sound.recorded push pushed with folded | swept
      · exact absurd folded notFolded
      · exact absurd swept notSwept

/-- A node that stays took part in no push. -/
theorem SoundAt.still_of_stays
    (sound : SoundAt labels settled state id)
    (stays : state.removal id = none) :
    (state.mark id).pushed = none :=
  sound.still (by simp [stays]) (by simp [stays])

/-- A node that a parent looks through took part in no push. -/
theorem SoundAt.still_of_clears
    (sound : SoundAt labels settled state id)
    (clears : state.clears id = true) :
    (state.mark id).pushed = none := by
  refine sound.still ?_ ?_
  all_goals rcases State.clears_iff.mp clears with known | known <;> simp [known]

/-- Every node has a mark. -/
theorem Sound.marked
    (sound : Sound labels settled state)
    (inside : id < labels.graph.size) :
    id < state.marks.size := by
  rw [sound.size]
  exact inside

/-- Every node of a subtree has a mark. -/
theorem Sound.marked_below
    (linked : labels.graph.Linked)
    (sound : Sound labels settled state)
    (inside : id < labels.graph.size) :
    ∀ lower ∈ labels.graph.traverse id, lower < state.marks.size := by
  intro lower listed
  have reaches := linked.mem_traverse.mp listed
  by_cases here : id = lower
  · exact here ▸ sound.marked inside
  · exact sound.marked (linked.forward_of_reaches reaches here).2

/-- Above an open node, nodes are looked through, or they stay and are unsettled. -/
theorem Sound.above
    (sound : Sound labels settled state)
    (isOpen : Open labels settled state id)
    {upper : NodeId}
    (reaches : labels.graph.Reaches upper id)
    (differ : upper ≠ id) :
    state.clears upper = true ∨ state.removal upper = none ∧ ¬ settled upper := by
  rcases isOpen upper reaches differ with unsettled | clears
  · rcases (sound.node upper).pending unsettled with stays | clears
    · exact .inr ⟨stays, unsettled⟩
    · exact .inl clears
  · exact .inl clears

/-- Nodes that are not below an open one stay sound when marks change below it only. -/
theorem Sound.outside
    (linked : labels.graph.Linked)
    (sound : Sound labels settled state)
    (isOpen : Open labels settled state id)
    {settledAfter : NodeId → Prop}
    (same : ∀ lower, ¬ labels.graph.Reaches id lower → other.mark lower = state.mark lower)
    (alike : ∀ lower, ¬ labels.graph.Reaches id lower → (settledAfter lower ↔ settled lower))
    {node : NodeId}
    (apart : ¬ labels.graph.Reaches id node) :
    SoundAt labels settledAfter other node := by
  have known := sound.node node
  by_cases isAbove : labels.graph.Reaches node id
  · -- Above, nothing is said that a change below could break.
    have differ := (SceneGraph.ne_of_not_reaches apart).symm
    have own := same node apart
    have removal := removal_of_mark own
    rcases sound.above isOpen isAbove differ with clears | ⟨stays, unsettled⟩
    · refine SoundAt.of_clears (clears_of_removal removal ▸ clears)
        (known.disposable (State.isSome_of_clears clears)) ?_
      rw [own]
      exact known.still_of_clears clears
    · have still := known.still_of_stays stays
      have unsettledAfter := mt (alike node apart).mp unsettled
      rw [← removal] at stays
      refine ⟨?_, ?_, ?_, ?_, fun _ => .inl stays, fun isSettled => absurd isSettled unsettledAfter⟩
      · simp [stays]
      · simp [own, still]
      · simp [stays]
      · simp [stays]
  · refine known.congr linked (fun lower reaches => same lower fun below => ?_) (alike node apart)
    rcases linked.reaches_comparable below reaches with down | up
    · exact apart down
    · exact isAbove up

/-- A sound state stays sound when nodes count as settled that are steady or removed. -/
theorem Sound.resettle
    (sound : Sound labels settled state)
    {settledAfter : NodeId → Prop}
    (more :
      ∀ id, settledAfter id →
        settled id ∨ (isEligible labels state id = true → Steady labels state id))
    (fewer :
      ∀ id, ¬ settledAfter id →
        ¬ settled id ∨ state.removal id = none ∨ state.clears id = true) :
    Sound labels settledAfter state where
  size := sound.size
  ordered := sound.ordered
  node := by
    intro id
    have known := sound.node id
    refine ⟨known.disposable, known.recorded, known.folded, known.swept, ?_, ?_⟩
    · intro unsettled
      rcases fewer id unsettled with before | stays
      · exact known.pending before
      · exact stays
    · intro isSettled eligible
      rcases more id isSettled with before | steady
      · exact known.steady before eligible
      · exact steady eligible

end Frames

end SceneMarkup.Pruning
