import SceneMarkup.Proofs.Planning
import SceneMarkup.Proofs.Stillness

namespace SceneMarkup.Pruning

open Scene Markup

universe u

/-!
# Cancelled rotations

Along a run, pairs of groups have their rotations cancelled.  The pairs are
recorded beside the state, which does not hold them.  At any time, what the state
says about places is what the scene says without the cancelled rotations: nodes
that show stand there, folds aside, and nodes that are looked through are at rest
there unless nothing shows below them.
-/

/-- The outer and the inner node of each pair whose rotations were cancelled. -/
abbrev Cancellations := List (NodeId × NodeId)

/-- Whether the rotation of the node was cancelled. -/
def Cancellations.involve (cancelled : Cancellations) (id : NodeId) : Bool :=
  cancelled.any fun pair => decide (pair.1 = id ∨ pair.2 = id)

/-- The transform of a node without its rotation if that was cancelled. -/
def Cancellations.leftOver
    (cancelled : Cancellations)
    (graph : SceneGraph)
    (id : NodeId) :
    Transform :=
  if cancelled.involve id then (graph.node id).transform.unturned else (graph.node id).transform

/-- A group that does nothing but rotate, and a group below it that rotates back. -/
structure Opposed (labels : Labels) (outer inner : NodeId) : Prop where
  reaches : labels.graph.Reaches outer inner
  differ : outer ≠ inner
  present : labels.graph.isRemoved outer = false
  outerDisposable : isDisposable labels outer = true
  innerDisposable : isDisposable labels inner = true
  bare : isBare labels outer = true
  turning : (printedTransform labels (labels.graph.node outer).transform).isOnly .rotation = true
  opposite :
    (roundedAngles (labels.graph.node outer).transform.rotation labels.options.precision).agrees
      (roundedAngles ((labels.graph.node inner).transform.rotation.map fun x => -x)
        labels.options.precision) = true

/-- Turning with the outer of two nodes and then standing at the inner one is the same as standing
there unturned. -/
def TurnsBack
    {M : Type u}
    [Monoid M]
    (reading : Interpretation M)
    (graph : SceneGraph)
    (outer inner : NodeId) :
    Prop :=
  reading.turn (graph.node outer).transform.rotation
      * reading.motion (graph.node inner).transform =
    reading.motion (graph.node inner).transform.unturned

/-- No fold has moved the node. -/
def Untargeted (state : State) (id : NodeId) : Prop :=
  ∀ upper push,
    state.removal upper = some .transformOverlap → (state.mark upper).pushed = some push →
      push.target ≠ id

/-- Nothing shows strictly below the node. -/
def Barren (labels : Labels) (state : State) (id : NodeId) : Prop :=
  ∀ lower, labels.graph.Reaches id lower → id ≠ lower → state.shows lower = false

/-- Where the pairs above it turn back, the node stands where it stood with their rotations. -/
def Unmoved (labels : Labels) (cancelled : Cancellations) (id : NodeId) : Prop :=
  ∀ {M : Type u} [Monoid M] (reading : Interpretation M),
    (∀ pair ∈ cancelled, labels.graph.Reaches pair.2 id →
      TurnsBack reading labels.graph pair.1 pair.2) →
    labels.graph.placementWith reading (cancelled.leftOver labels.graph) id =
      labels.graph.placement reading id

/-- The state stands for the scene without the cancelled rotations. -/
structure Accounted (labels : Labels) (cancelled : Cancellations) (state : State) : Prop where
  opposed : ∀ pair ∈ cancelled, Opposed labels pair.1 pair.2
  gone :
    ∀ pair ∈ cancelled,
      state.removal pair.1 = some .doubleNegative ∨ state.removal pair.1 = some .noContent
  clear :
    ∀ id, state.clears id = true →
      printedTransform labels (cancelled.leftOver labels.graph id) = [] ∨ Barren labels state id
  placed :
    ∀ id, state.shows id = true → Untargeted state id →
      state.transform labels.graph id = cancelled.leftOver labels.graph id
  pushed :
    ∀ upper push,
      state.removal upper = some .transformOverlap → (state.mark upper).pushed = some push →
        State.placeOf labels.graph push.target push.previous =
          cancelled.leftOver labels.graph push.target
  unmoved :
    ∀ id, labels.graph.Reaches SceneGraph.root id → state.shows id = true →
      Unmoved.{u} labels cancelled id

/-- A node that is not shifted turns back if the two turns undo each other. -/
theorem turnsBack_of_rest
    {M : Type u}
    [Monoid M]
    {reading : Interpretation M}
    {graph : SceneGraph}
    {outer inner : NodeId}
    (rest : (graph.node inner).transform.position.agrees .zero = true)
    (back :
      reading.turn (graph.node outer).transform.rotation
        * reading.turn (graph.node inner).transform.rotation = 1) :
    TurnsBack reading graph outer inner := by
  have unturned :
      reading.motion (graph.node inner).transform.unturned =
        reading.stretch (graph.node inner).transform.scale := by
    rw [Interpretation.motion, Transform.unturned, reading.shift_rest _ rest,
      reading.turn_rest Scene.Vector.zero_agrees_zero, one_mul, one_mul]
  rw [TurnsBack, unturned, Interpretation.motion, reading.shift_rest _ rest, one_mul, ← mul_assoc,
    back, one_mul]

section Leftovers

variable {cancelled : Cancellations} {graph : SceneGraph} {outer inner id : NodeId}

theorem Cancellations.leftOver_cons_outer :
    Cancellations.leftOver ((outer, inner) :: cancelled) graph outer =
      (graph.node outer).transform.unturned := by
  simp [leftOver, involve]

theorem Cancellations.leftOver_cons_inner :
    Cancellations.leftOver ((outer, inner) :: cancelled) graph inner =
      (graph.node inner).transform.unturned := by
  simp [leftOver, involve]

theorem Cancellations.leftOver_cons_other
    (notOuter : id ≠ outer)
    (notInner : id ≠ inner) :
    Cancellations.leftOver ((outer, inner) :: cancelled) graph id =
      cancelled.leftOver graph id := by
  have apart : decide (outer = id ∨ inner = id) = false := by
    simp [Ne.symm notOuter, Ne.symm notInner]
  rw [leftOver, leftOver, involve, involve, List.any_cons, apart, Bool.false_or]

theorem Cancellations.leftOver_filter
    {chosen : NodeId × NodeId → Bool}
    (kept : ∀ pair ∈ cancelled, pair.1 = id ∨ pair.2 = id → chosen pair = true) :
    Cancellations.leftOver (cancelled.filter chosen) graph id = cancelled.leftOver graph id := by
  have same : Cancellations.involve (cancelled.filter chosen) id = cancelled.involve id := by
    rw [involve, involve, List.any_filter, Bool.eq_iff_iff, List.any_eq_true, List.any_eq_true]
    constructor
    · rintro ⟨pair, member, both⟩
      exact ⟨pair, member, (Bool.and_eq_true_iff.mp both).2⟩
    · rintro ⟨pair, member, here⟩
      have chosenHere := kept pair member (of_decide_eq_true here)
      exact ⟨pair, member, Bool.and_eq_true_iff.mpr ⟨chosenHere, here⟩⟩
  rw [leftOver, leftOver, same]

/-- What is left over of a node is its transform, or that without the rotation. -/
theorem Cancellations.leftOver_cases
    (cancelled : Cancellations)
    (graph : SceneGraph)
    (id : NodeId) :
    cancelled.leftOver graph id = (graph.node id).transform ∨
      cancelled.leftOver graph id = (graph.node id).transform.unturned := by
  unfold leftOver
  split
  · exact .inr rfl
  · exact .inl rfl

/-- What prints nothing without the cancelled rotations is at rest without them. -/
theorem Cancellations.motion_leftOver
    {labels : Labels}
    {M : Type u}
    [Monoid M]
    (reading : Interpretation M)
    (exact : labels.graph.IsExact labels.options.precision)
    (legible : labels.graph.IsLegible labels.options.precision)
    (inside : id < labels.graph.size)
    (nothing : printedTransform labels (cancelled.leftOver labels.graph id) = []) :
    reading.motion (cancelled.leftOver labels.graph id) = 1 := by
  rcases cancelled.leftOver_cases labels.graph id with same | same
  · rw [same] at nothing ⊢
    exact reading.motion_of_printsNothing (exact id inside) (legible id inside) nothing
  · rw [same] at nothing ⊢
    exact reading.motion_of_printsNothing (Transform.isExact_unturned (exact id inside))
      (Transform.isLegible_unturned (legible id inside)) nothing

end Leftovers

section Steps

variable {labels : Labels} {settled : NodeId → Prop} {cancelled : Cancellations}
  {state other : State} {id : NodeId}

/-- A fold that is recorded has moved its target. -/
theorem Sound.foldedOnto
    (sound : Sound labels settled state)
    {upper : NodeId}
    {push : Push}
    (removed : state.removal upper = some .transformOverlap)
    (recorded : (state.mark upper).pushed = some push) :
    FoldedOnto labels state upper push := by
  obtain ⟨found, folded⟩ := (sound.node upper).folded removed
  have same := folded.recorded
  rw [recorded] at same
  cases same
  exact folded

/-- Open nodes are not moved by a fold. -/
theorem Sound.untargeted_of_open
    (linked : labels.graph.Linked)
    (sound : Sound labels settled state)
    (isOpen : Open labels settled state id) :
    Untargeted state id := by
  rintro upper push removed recorded rfl
  have exposes := (sound.foldedOnto removed recorded).exposes linked
  rcases sound.above isOpen exposes.reaches exposes.differ with clears | ⟨stays, _⟩
  · rcases State.clears_iff.mp clears with known | known
    all_goals
      rw [removed] at known
      cases known
  · rw [removed] at stays
    cases stays

theorem State.shows_of_not_clears
    (solid : state.clears id = false)
    (notSwept : state.removal id ≠ some .noContent) :
    state.shows id = true := by
  unfold State.clears at solid
  unfold State.shows
  cases removal : state.removal id with
  | none => rfl
  | some reason => cases reason <;> simp_all

/-- Everything below a swept node is swept. -/
theorem Sound.swept_below
    (sound : Sound labels settled state)
    {upper lower : NodeId}
    (swept : state.removal upper = some .noContent)
    (reaches : labels.graph.Reaches upper lower) :
    state.removal lower = some .noContent := by
  induction reaches with
  | refl => exact swept
  | @tail holder child _ member ih => exact (sound.node holder).swept ih child member

/-- What shows below a node is at or below a node that it sees. -/
theorem Sound.front_above
    (linked : labels.graph.Linked)
    (sound : Sound labels settled state)
    {upper lower : NodeId}
    (reaches : labels.graph.Reaches upper lower)
    (differ : upper ≠ lower)
    (shows : state.shows lower = true) :
    ∃ seen ∈ state.front labels.graph upper, labels.graph.Reaches seen lower := by
  induction upper using linked.childrenFirst with
  | step upper ih =>
      rcases SceneGraph.Reaches.head_iff.mp reaches with same | ⟨child, member, down⟩
      · exact absurd same differ
      · have exposes : labels.graph.Exposes state.clears upper child := linked.exposes_child member
        cases clears : state.clears child with
        | true =>
            have deeper : child ≠ lower := by
              rintro rfl
              rw [State.not_shows_of_clears clears] at shows
              cases shows
            obtain ⟨seen, listed, toLower⟩ := ih child member down deeper
            obtain ⟨further, seenShows⟩ := (State.mem_front linked).mp listed
            exact ⟨seen, (State.mem_front linked).mpr
              ⟨linked.exposes_of_child member clears further, seenShows⟩, toLower⟩
        | false =>
            have notSwept : state.removal child ≠ some .noContent := by
              intro swept
              have gone := sound.swept_below swept down
              simp [State.shows, gone] at shows
            have childShows := State.shows_of_not_clears clears notSwept
            exact ⟨child, (State.mem_front linked).mpr ⟨exposes, childShows⟩, down⟩

/-- Nothing shows below a node that holds or sees nothing. -/
theorem Sound.barren
    (linked : labels.graph.Linked)
    (sound : Sound labels settled state)
    (nothing : labels.graph.children id = [] ∨ state.front labels.graph id = []) :
    Barren labels state id := by
  intro lower reaches differ
  rcases nothing with leaf | unseen
  · rcases SceneGraph.Reaches.head_iff.mp reaches with same | ⟨child, member, _⟩
    · exact absurd same differ
    · rw [leaf] at member
      cases member
  · rw [← Bool.not_eq_true]
    intro lowerShows
    obtain ⟨seen, listed, _⟩ := sound.front_above linked reaches differ lowerShows
    rw [unseen] at listed
    cases listed

theorem Barren.mono
    (barren : Barren labels state id)
    (fewer : ∀ lower, other.shows lower = true → state.shows lower = true) :
    Barren labels other id := by
  intro lower reaches differ
  rw [← Bool.not_eq_true]
  intro shows
  have before := fewer lower shows
  rw [barren lower reaches differ] at before
  cases before

theorem accounted_start
    (labels : Labels) :
    Accounted.{u} labels [] (State.start labels.graph) := by
  have removal : ∀ id, (State.start labels.graph).removal id = none := by
    intro id
    rw [State.removal, mark_start]
  refine ⟨by simp, by simp, ?_, ?_, ?_, fun _ _ _ _ _ _ _ => rfl⟩
  · intro id clears
    simp [State.clears, removal] at clears
  · intro id _ _
    rw [State.transform, mark_start]
    rfl
  · intro upper push removed
    rw [removal] at removed
    cases removed

/-- Reports leave the account alone. -/
theorem Accounted.of_mark
    (accounted : Accounted.{u} labels cancelled state)
    (mark : other.mark = state.mark) :
    Accounted.{u} labels cancelled other := by
  have removal : other.removal = state.removal := by
    funext node
    rw [State.removal, State.removal, mark]
  have shows : other.shows = state.shows := by
    funext node
    rw [State.shows, State.shows, removal]
  have clears : other.clears = state.clears := by
    funext node
    rw [State.clears, State.clears, removal]
  have transform : other.transform = state.transform := by
    funext graph node
    rw [State.transform, State.transform, mark]
  refine ⟨accounted.opposed, ?_, ?_, ?_, ?_, ?_⟩
  · rw [removal]
    exact accounted.gone
  · unfold Barren
    rw [clears, shows]
    exact accounted.clear
  · unfold Untargeted
    rw [shows, removal, mark, transform]
    exact accounted.placed
  · rw [removal, mark]
    exact accounted.pushed
  · rw [shows]
    exact accounted.unmoved

theorem Accounted.not_outer
    (accounted : Accounted.{u} labels cancelled state)
    {pair : NodeId × NodeId}
    (member : pair ∈ cancelled)
    (shows : state.shows id = true) :
    id ≠ pair.1 := by
  rintro rfl
  rcases accounted.gone pair member with removed | removed
  all_goals
    rw [State.shows, removed] at shows
    cases shows

/-- A state that shows no more than another one is accounted for alike, if what it shows stands
where it stood or where it should, and what it looks through may be looked through. -/
theorem Accounted.step
    (accounted : Accounted.{u} labels cancelled state)
    (fewer : ∀ node, other.shows node = true → state.shows node = true)
    (gone :
      ∀ pair ∈ cancelled,
        other.removal pair.1 = some .doubleNegative ∨ other.removal pair.1 = some .noContent)
    (clear :
      ∀ node, other.clears node = true →
        state.clears node = true ∨
          printedTransform labels (cancelled.leftOver labels.graph node) = [] ∨
            Barren labels state node)
    (placed :
      ∀ node, other.shows node = true → Untargeted other node →
        (Untargeted state node ∧
            other.transform labels.graph node = state.transform labels.graph node) ∨
          other.transform labels.graph node = cancelled.leftOver labels.graph node)
    (pushed :
      ∀ upper push,
        other.removal upper = some .transformOverlap → (other.mark upper).pushed = some push →
          (state.removal upper = some .transformOverlap ∧ (state.mark upper).pushed = some push) ∨
            State.placeOf labels.graph push.target push.previous =
              cancelled.leftOver labels.graph push.target) :
    Accounted.{u} labels cancelled other where
  opposed := accounted.opposed
  gone := gone
  clear := by
    intro node clears
    rcases clear node clears with before | nothing | barren
    · exact (accounted.clear node before).imp_right fun barren => barren.mono fewer
    · exact .inl nothing
    · exact .inr (barren.mono fewer)
  placed := by
    intro node shows untargeted
    rcases placed node shows untargeted with ⟨before, kept⟩ | known
    · rw [kept]
      exact accounted.placed node (fewer node shows) before
    · exact known
  pushed := by
    intro upper push folds recorded
    rcases pushed upper push folds recorded with ⟨before, known⟩ | known
    · exact accounted.pushed upper push before known
    · exact known
  unmoved := fun node reached shows => accounted.unmoved node reached (fewer node shows)

/-- A change of one node that shows before and afterwards is not seen. -/
theorem State.alike_of_shows
    (shows : state.shows id = true)
    (after : other.shows id = true)
    (others : ∀ node, node ≠ id → other.removal node = state.removal node)
    (node : NodeId) :
    other.shows node = state.shows node ∧ other.clears node = state.clears node := by
  have solid : ∀ {given : State}, given.shows id = true → given.clears id = false := by
    intro given known
    rw [← Bool.not_eq_true]
    intro clears
    rw [State.not_shows_of_clears clears] at known
    cases known
  by_cases here : node = id
  · rw [here, shows, after, solid shows, solid after]
    exact ⟨rfl, rfl⟩
  · rw [State.shows, State.shows, others node here]
    exact ⟨rfl, clears_of_removal (others node here)⟩

/-- Restoring a node that shows is not seen. -/
theorem Sound.alike_restore
    (linked : labels.graph.Linked)
    (sound : Sound labels settled state)
    (inside : id < labels.graph.size)
    (shows : state.shows id = true)
    (node : NodeId) :
    (state.restore id).shows node = state.shows node ∧
      (state.restore id).clears node = state.clears node := by
  obtain ⟨stays, others, _⟩ := restore_spec linked sound inside shows
  exact State.alike_of_shows shows (State.shows_of_none stays) others node

/-- A fold is not seen. -/
theorem State.alike_foldInto
    {child : NodeId}
    (inside : id < state.marks.size)
    (childInside : child < state.marks.size)
    (apart : id ≠ child)
    (stays : state.removal id = none)
    (node : NodeId) :
    (foldInto labels state id child).shows node = state.shows node ∧
      (foldInto labels state id child).clears node = state.clears node := by
  have removal := State.removal_foldInto labels inside childInside apart
  refine State.alike_of_shows (State.shows_of_none stays) (State.shows_iff.mpr (.inr ?_))
    (fun other differ => ?_) node
  · rw [removal, if_pos rfl]
  · rw [removal, if_neg (Ne.symm differ)]

/-- A node that was moved by a fold is put back when the folded node is restored. -/
theorem Accounted.restore
    (linked : labels.graph.Linked)
    (sound : Sound labels settled state)
    (accounted : Accounted.{u} labels cancelled state)
    (inside : id < labels.graph.size)
    (shows : state.shows id = true) :
    Accounted.{u} labels cancelled (state.restore id) := by
  rcases State.shows_iff.mp shows with stays | removed
  · rw [State.restore_of_none stays ((sound.node id).still_of_stays stays)]
    exact accounted
  · obtain ⟨push, folded⟩ := (sound.node id).folded removed
    obtain ⟨_, _, marks⟩ := mark_restore linked sound inside removed folded
    obtain ⟨staysThen, others, _⟩ := restore_spec linked sound inside shows
    have differ := (folded.exposes linked).differ
    have alike := sound.alike_restore linked inside shows
    have records :
        ∀ upper, upper ≠ id →
          ((state.restore id).mark upper).pushed = (state.mark upper).pushed := by
      intro upper apart
      rw [marks, if_neg (Ne.symm apart)]
      split <;> rfl
    refine accounted.step ?_ ?_ ?_ ?_ ?_
    · intro node nodeShows
      rwa [(alike node).1] at nodeShows
    · intro pair member
      rw [others pair.1 (Ne.symm (accounted.not_outer member shows))]
      exact accounted.gone pair member
    · intro node clears
      rw [(alike node).2] at clears
      exact .inl clears
    · intro node _ untargeted
      by_cases atTarget : push.target = node
      · subst atTarget
        rw [State.transform, marks, if_neg differ, if_pos rfl]
        exact .inr (accounted.pushed id push removed folded.recorded)
      · refine .inl ⟨fun upper earlier folds recorded => ?_, transform_of_replacement ?_⟩
        · by_cases here : upper = id
          · subst here
            rw [folded.recorded] at recorded
            cases recorded
            exact atTarget
          · refine untargeted upper earlier ?_ ?_
            · rw [others upper here]
              exact folds
            · rw [records upper here]
              exact recorded
        · rw [marks, if_neg atTarget]
          split <;> rfl
    · intro upper earlier folds recorded
      have apart : upper ≠ id :=
        (state.restore id).ne_of_removal (by simp [folds, staysThen])
      rw [others upper apart] at folds
      rw [records upper apart] at recorded
      exact .inl ⟨folds, recorded⟩

/-- A group at rest, or one below which nothing shows, may be looked through. -/
theorem Accounted.empty
    (linked : labels.graph.Linked)
    (sound : Sound labels settled state)
    (accounted : Accounted.{u} labels cancelled state)
    (isOpen : Open labels settled state id)
    (inside : id < labels.graph.size)
    (stays : state.removal id = none)
    (justified : Justified labels state id .empty) :
    Accounted.{u} labels cancelled (state.remove labels id .empty) := by
  have marks := State.mark_remove (sound.marked inside) labels .empty
  have removal := State.removal_remove (sound.marked inside) labels .empty
  have shows := State.shows_of_none stays
  have elsewhere :
      ∀ node, node ≠ id →
        (state.remove labels id .empty).removal node = state.removal node := by
    intro node differ
    rw [removal, if_neg (Ne.symm differ)]
  have notHere :
      ∀ node, (state.remove labels id .empty).shows node = true → node ≠ id := by
    rintro node nodeShows rfl
    simp [State.shows, removal] at nodeShows
  refine accounted.step ?_ ?_ ?_ ?_ ?_
  · intro node nodeShows
    rwa [State.shows, elsewhere node (notHere node nodeShows)] at nodeShows
  · intro pair member
    rw [elsewhere _ (Ne.symm (accounted.not_outer member shows))]
    exact accounted.gone pair member
  · intro node clears
    by_cases here : node = id
    · subst here
      right
      rcases justified with ⟨_, resting⟩ | nothing
      · rw [accounted.placed node shows (sound.untargeted_of_open linked isOpen)] at resting
        exact .inl resting
      · exact .inr (sound.barren linked nothing)
    · rw [State.clears, elsewhere node here] at clears
      exact .inl clears
  · intro node nodeShows untargeted
    have differ := notHere node nodeShows
    refine .inl ⟨fun upper push folds recorded => ?_, transform_of_replacement ?_⟩
    · have apart : upper ≠ id := state.ne_of_removal (by simp [folds, stays])
      refine untargeted upper push ?_ ?_
      · rw [elsewhere upper apart]
        exact folds
      · rw [marks, if_neg (Ne.symm apart)]
        exact recorded
    · rw [marks, if_neg (Ne.symm differ)]
  · intro upper push folds recorded
    have apart : upper ≠ id := by
      rintro rfl
      rw [removal, if_pos rfl] at folds
      cases folds
    rw [elsewhere upper apart] at folds
    rw [marks, if_neg (Ne.symm apart)] at recorded
    exact .inl ⟨folds, recorded⟩

/-- A fold is not seen when folds are set aside. -/
theorem Accounted.fold
    (linked : labels.graph.Linked)
    (sound : Sound labels settled state)
    (accounted : Accounted.{u} labels cancelled state)
    (inside : id < labels.graph.size)
    (stays : state.removal id = none)
    {child : NodeId}
    (exposes : labels.graph.Exposes state.clears id child)
    (childShows : state.shows child = true)
    (childUntargeted : Untargeted state child) :
    Accounted.{u} labels cancelled (foldInto labels state id child) := by
  have childInside := (linked.forward_of_reaches exposes.reaches exposes.differ).2
  have insideMarks := sound.marked inside
  have childInsideMarks := sound.marked childInside
  have marks := State.mark_foldInto labels insideMarks childInsideMarks exposes.differ
  have removal := State.removal_foldInto labels insideMarks childInsideMarks exposes.differ
  have removed : (foldInto labels state id child).removal id = some .transformOverlap := by
    rw [removal, if_pos rfl]
  have others :
      ∀ node, node ≠ id →
        (foldInto labels state id child).removal node = state.removal node := by
    intro node differ
    rw [removal, if_neg (Ne.symm differ)]
  have records :
      ∀ upper, upper ≠ id →
        ((foldInto labels state id child).mark upper).pushed = (state.mark upper).pushed := by
    intro upper apart
    rw [marks, if_neg (Ne.symm apart)]
    split <;> rfl
  have shows := State.shows_of_none stays
  have alike := @State.alike_foldInto labels state id child insideMarks childInsideMarks
    exposes.differ stays
  refine accounted.step ?_ ?_ ?_ ?_ ?_
  · intro node nodeShows
    rwa [(alike node).1] at nodeShows
  · intro pair member
    rw [others pair.1 (Ne.symm (accounted.not_outer member shows))]
    exact accounted.gone pair member
  · intro node clears
    rw [(alike node).2] at clears
    exact .inl clears
  · intro node _ untargeted
    have notChild : child ≠ node := by
      refine untargeted id ⟨child, (state.mark child).replacement⟩ removed ?_
      rw [marks, if_pos rfl]
    refine .inl ⟨fun upper push folds recorded => ?_, transform_of_replacement ?_⟩
    · have apart : upper ≠ id := state.ne_of_removal (by simp [folds, stays])
      refine untargeted upper push ?_ ?_
      · rw [others upper apart]
        exact folds
      · rw [records upper apart]
        exact recorded
    · rw [marks, if_neg notChild]
      split <;> rfl
  · intro upper push folds recorded
    by_cases here : upper = id
    · rw [here, marks, if_pos rfl] at recorded
      cases recorded
      exact .inr (accounted.placed child childShows childUntargeted)
    · rw [others upper here] at folds
      rw [records upper here] at recorded
      exact .inl ⟨folds, recorded⟩

/-- Nothing shows in a swept subtree. -/
theorem Accounted.sweep
    (linked : labels.graph.Linked)
    (sound : Sound labels settled state)
    (accounted : Accounted.{u} labels cancelled state)
    (inside : id < labels.graph.size) :
    Accounted.{u} labels cancelled (sweepSubtree labels state id) := by
  obtain ⟨_, _, marks⟩ :=
    State.sweepSubtree_spec sound.ordered (sound.marked_below linked inside)
  have swept :
      ∀ node, labels.graph.Reaches id node →
        (sweepSubtree labels state id).removal node = some .noContent := by
    intro node reaches
    rw [State.removal_sweepSubtree sound.ordered (sound.marked_below linked inside),
      if_pos (linked.mem_traverse.mpr reaches)]
  have elsewhere :
      ∀ node, ¬ labels.graph.Reaches id node →
        (sweepSubtree labels state id).mark node = state.mark node := by
    intro node apart
    rw [marks, if_neg (mt linked.mem_traverse.mp apart)]
  have outside :
      ∀ node, (sweepSubtree labels state id).shows node = true →
        ¬ labels.graph.Reaches id node := by
    intro node shows reaches
    rw [State.shows, swept node reaches] at shows
    cases shows
  refine accounted.step ?_ ?_ ?_ ?_ ?_
  · intro node shows
    rwa [State.shows, removal_of_mark (elsewhere node (outside node shows))] at shows
  · intro pair member
    by_cases reaches : labels.graph.Reaches id pair.1
    · exact .inr (swept pair.1 reaches)
    · rw [removal_of_mark (elsewhere pair.1 reaches)]
      exact accounted.gone pair member
  · intro node clears
    have apart : ¬ labels.graph.Reaches id node := by
      intro reaches
      rw [State.clears, swept node reaches] at clears
      cases clears
    rw [State.clears, removal_of_mark (elsewhere node apart)] at clears
    exact .inl clears
  · intro node shows untargeted
    have apart := outside node shows
    refine .inl ⟨fun upper push folds recorded => ?_, transform_of_replacement ?_⟩
    · by_cases reaches : labels.graph.Reaches id upper
      · rintro rfl
        have exposes := (sound.foldedOnto folds recorded).exposes linked
        exact apart (reaches.trans exposes.reaches)
      · refine untargeted upper push ?_ ?_
        · rw [removal_of_mark (elsewhere upper reaches)]
          exact folds
        · rw [elsewhere upper reaches]
          exact recorded
    · rw [elsewhere node apart]
  · intro upper push folds recorded
    have apart := outside upper (State.shows_iff.mpr (.inr folds))
    rw [removal_of_mark (elsewhere upper apart)] at folds
    rw [elsewhere upper apart] at recorded
    exact .inl ⟨folds, recorded⟩

end Steps

end SceneMarkup.Pruning
