import SceneMarkup.Proofs.Blocks
import SceneMarkup.Proofs.PruningMarks

namespace SceneMarkup.Pruning

open Scene Markup

/-!
# What a verdict rests on

Each verdict has its reason in the marks and in what the nodes involved would
print.  A group that is kept is steady: no rule applies to it.
-/

/-- The group does nothing but rotate, and against a nested group that may go. -/
structure Cancels (labels : Labels) (state : State) (id child : NodeId) : Prop where
  group : (labels.graph.node child).kind.isGroup = true
  bare : isBare labels id = true
  turning :
    (printedTransform labels (state.transform labels.graph id)).isOnly .rotation = true
  opposite : rotationsCancel labels state id child = true
  disposable : isDisposable labels child = true
  aggressive : labels.options.aggressive = true

/-- The group does nothing but move, and its transform may stand on a child that does not. -/
structure Folds (labels : Labels) (state : State) (id child : NodeId) : Prop where
  bare : isBare labels id = true
  moving : printedTransform labels (state.transform labels.graph id) ≠ []
  resting : printedTransform labels (state.transform labels.graph child) = []
  expressible : isExpressible (labels.graph.node child) = true
  notBone : (labels.graph.node child).kind.isBone = false
  notRelevant : labels.isRelevant child = false
  aggressive : labels.options.aggressive = true

/-- Nothing is printed for a node but a rotation. -/
def OnlyTurns (labels : Labels) (state : State) (id : NodeId) : Prop :=
  isBare labels id = true ∧
    (printedTransform labels (state.transform labels.graph id)).isOnly .rotation = true

/-- No rule applies to the group. -/
structure Steady (labels : Labels) (state : State) (id : NodeId) : Prop where
  expressible : isExpressible (labels.graph.node id) = true
  prints :
    isBare labels id = true → printedTransform labels (state.transform labels.graph id) ≠ []
  holds : labels.graph.children id ≠ []
  sees : labels.options.aggressive = false → state.front labels.graph id ≠ []
  content : labels.options.aggressive = true → hasContent labels id = true
  childExpressible :
    labels.options.aggressive = true →
      ∀ child, state.front labels.graph id = [child] →
        isExpressible (labels.graph.node child) = true
  uncancelled :
    labels.options.aggressive = true →
      ∀ child, state.front labels.graph id = [child] → ¬ Cancels labels state id child
  unfolded :
    labels.options.aggressive = true →
      ∀ child, state.front labels.graph id = [child] → ¬ Folds labels state id child

/-- The reason behind a verdict. -/
def Justified (labels : Labels) (state : State) (id : NodeId) : Verdict labels.graph id → Prop
  | .keep => Steady labels state id
  | .empty =>
      (isBare labels id = true ∧
          printedTransform labels (state.transform labels.graph id) = []) ∨
        labels.graph.children id = [] ∨ state.front labels.graph id = []
  | .cancelBoth child =>
      state.front labels.graph id = [child.val] ∧ Cancels labels state id child.val ∧
        OnlyTurns labels state child.val
  | .cancelOuter child =>
      state.front labels.graph id = [child.val] ∧ Cancels labels state id child.val ∧
        ¬ OnlyTurns labels state child.val
  | .fold child =>
      state.front labels.graph id = [child.val] ∧ Folds labels state id child.val
  | .sweep => labels.options.aggressive = true ∧ hasContent labels id = false

section Verdicts

variable {labels : Labels} {state : State} {id : NodeId}

/-- The attributes of a node can be computed exactly if it can be expressed. -/
theorem pending_ok_iff :
    (∃ attributes, pendingAttributes labels state id = .ok attributes) ↔
      isExpressible (labels.graph.node id) = true :=
  attributesAt_ok_iff

/-- The rule for opposite rotations applies exactly where rotations cancel. -/
theorem cancels_iff
    {attributes : Attributes}
    (aggressive : labels.options.aggressive = true)
    (printed : pendingAttributes labels state id = .ok attributes)
    (child : NodeId) :
    ((labels.graph.node child).kind.isGroup && attributes.isOnly .rotation
        && rotationsCancel labels state id child) = true ∧ isDisposable labels child = true ↔
      Cancels labels state id child := by
  rw [isOnly_attributesAt rfl printed]
  simp only [Bool.and_eq_true]
  constructor
  · rintro ⟨⟨⟨group, bare, turning⟩, opposite⟩, disposable⟩
    exact ⟨group, bare, turning, opposite, disposable, aggressive⟩
  · rintro ⟨group, bare, turning, opposite, disposable, _⟩
    exact ⟨⟨⟨group, bare, turning⟩, opposite⟩, disposable⟩

/-- The rule for folding applies exactly where a transform may be folded. -/
theorem mayFold_iff
    {child : NodeId}
    {attributes childAttributes : Attributes}
    (aggressive : labels.options.aggressive = true)
    (printed : pendingAttributes labels state id = .ok attributes)
    (childPrinted : pendingAttributes labels state child = .ok childAttributes) :
    mayFold labels child attributes childAttributes = true ↔ Folds labels state id child := by
  rw [mayFold, isOnlyTransform_attributesAt printed, hasTransform_attributesAt childPrinted]
  simp only [Bool.and_eq_true, Bool.not_eq_true', Bool.not_not, List.isEmpty_iff,
    List.isEmpty_eq_false_iff]
  constructor
  · rintro ⟨⟨⟨⟨bare, moving⟩, resting⟩, notBone⟩, notRelevant⟩
    have expressible := attributesAt_ok_iff.mp ⟨childAttributes, childPrinted⟩
    exact ⟨bare, moving, resting, expressible, notBone, notRelevant, aggressive⟩
  · rintro ⟨bare, moving, resting, _, notBone, notRelevant, _⟩
    exact ⟨⟨⟨⟨bare, moving⟩, resting⟩, notBone⟩, notRelevant⟩

/-- A node prints its rotation alone exactly if it only turns. -/
theorem onlyTurns_iff
    {attributes : Attributes}
    (printed : pendingAttributes labels state id = .ok attributes) :
    attributes.isOnly .rotation = true ↔ OnlyTurns labels state id := by
  rw [isOnly_attributesAt rfl printed, Bool.and_eq_true]
  rfl

/-- A node prints nothing exactly if it is bare and its transform prints nothing. -/
theorem printsNothing_iff
    {attributes : Attributes}
    (printed : pendingAttributes labels state id = .ok attributes) :
    attributes.isEmpty = true ↔
      isBare labels id = true ∧
        printedTransform labels (state.transform labels.graph id) = [] := by
  rw [isEmpty_attributesAt printed, Bool.and_eq_true, List.isEmpty_iff]

/-- A group for which something is printed does not rest if it is bare. -/
theorem printed_of_prints
    {attributes : Attributes}
    (printed : pendingAttributes labels state id = .ok attributes)
    (prints : attributes.isEmpty = false)
    (bare : isBare labels id = true) :
    printedTransform labels (state.transform labels.graph id) ≠ [] := by
  intro resting
  rw [(printsNothing_iff printed).mpr ⟨bare, resting⟩] at prints
  cases prints

/-- Outside of aggressive runs a group is steady that prints something and sees something. -/
theorem steady_of_plain
    {attributes : Attributes}
    (plain : labels.options.aggressive = false)
    (printed : pendingAttributes labels state id = .ok attributes)
    (prints : attributes.isEmpty = false)
    (holds : labels.graph.children id ≠ [])
    (sees : state.front labels.graph id ≠ []) :
    Steady labels state id := by
  have never : labels.options.aggressive ≠ true := by
    rw [plain]
    exact Bool.false_ne_true
  exact {
    expressible := pending_ok_iff.mp ⟨attributes, printed⟩
    prints := printed_of_prints printed prints
    holds := holds
    sees := fun _ => sees
    content := fun aggressive => absurd aggressive never
    childExpressible := fun aggressive => absurd aggressive never
    uncancelled := fun aggressive => absurd aggressive never
    unfolded := fun aggressive => absurd aggressive never }

/-- In an aggressive run a group is steady that prints something and has content, if an only child
neither cancels against it nor takes its transform. -/
theorem steady_of_eager
    {attributes : Attributes}
    (aggressive : labels.options.aggressive = true)
    (printed : pendingAttributes labels state id = .ok attributes)
    (prints : attributes.isEmpty = false)
    (holds : labels.graph.children id ≠ [])
    (content : hasContent labels id = true)
    (only :
      ∀ child, state.front labels.graph id = [child] →
        isExpressible (labels.graph.node child) = true ∧ ¬ Cancels labels state id child ∧
          ¬ Folds labels state id child) :
    Steady labels state id where
  expressible := pending_ok_iff.mp ⟨attributes, printed⟩
  prints := printed_of_prints printed prints
  holds := holds
  sees := fun plain => absurd (plain.symm.trans aggressive) Bool.false_ne_true
  content := fun _ => content
  childExpressible := fun _ child front => (only child front).1
  uncancelled := fun _ child front => (only child front).2.1
  unfolded := fun _ child front => (only child front).2.2

/-- With nothing drawn below it a group is swept. -/
theorem contentVerdict_justified
    (aggressive : labels.options.aggressive = true)
    (steady : hasContent labels id = true → Steady labels state id) :
    Justified labels state id (contentVerdict labels id) := by
  unfold contentVerdict
  cases content : hasContent labels id with
  | true => exact steady content
  | false => exact ⟨aggressive, content⟩

/-- Verdicts about a group with an only child are justified. -/
theorem onlyChildVerdict_justified
    {child : labels.graph.Later id}
    {attributes childAttributes : Attributes}
    (aggressive : labels.options.aggressive = true)
    (front : state.front labels.graph id = [child.val])
    (printed : pendingAttributes labels state id = .ok attributes)
    (childPrinted : pendingAttributes labels state child.val = .ok childAttributes)
    (prints : attributes.isEmpty = false)
    (holds : labels.graph.children id ≠ []) :
    Justified labels state id
      (onlyChildVerdict labels state id child attributes childAttributes).1 := by
  have otherwise :
      ¬ Cancels labels state id child.val →
        Justified labels state id
          (if mayFold labels child.val attributes childAttributes then .fold child
            else contentVerdict labels id) := by
    intro uncancelled
    cases fold : mayFold labels child.val attributes childAttributes with
    | true => exact ⟨front, (mayFold_iff aggressive printed childPrinted).mp fold⟩
    | false =>
        refine contentVerdict_justified aggressive fun content => ?_
        refine steady_of_eager aggressive printed prints holds content fun other alone => ?_
        rw [front] at alone
        obtain rfl := List.singleton_inj.mp alone
        refine ⟨pending_ok_iff.mp ⟨childAttributes, childPrinted⟩, uncancelled, fun folds => ?_⟩
        rw [(mayFold_iff aggressive printed childPrinted).mpr folds] at fold
        cases fold
  have cancels := cancels_iff aggressive printed child.val
  unfold onlyChildVerdict
  by_cases opposite :
      ((labels.graph.node child.val).kind.isGroup && attributes.isOnly .rotation
        && rotationsCancel labels state id child.val) = true
  · by_cases disposable : isDisposable labels child.val = true
    · have both := cancels.mp ⟨opposite, disposable⟩
      have turns := onlyTurns_iff childPrinted
      simp only [opposite, disposable, if_true]
      split
      next onlyTurns => exact ⟨front, both, turns.mp onlyTurns⟩
      next notOnlyTurns => exact ⟨front, both, fun holds => notOnlyTurns (turns.mpr holds)⟩
    · simp only [opposite, disposable, if_true]
      exact otherwise fun both => disposable both.disposable
  · simp only [opposite]
    exact otherwise fun both => opposite (cancels.mpr both).1

/-- A verdict has its reason. -/
theorem verdict_justified
    {decision : Verdict labels.graph id}
    {reports : List Report}
    (reached : verdict labels state id = .ok (decision, reports)) :
    Justified labels state id decision := by
  unfold verdict at reached
  cases printed : pendingAttributes labels state id with
  | error fault =>
      rw [printed] at reached
      cases reached
  | ok attributes =>
      rw [printed] at reached
      simp only [Except.bind] at reached
      by_cases gone : (attributes.isEmpty || (labels.graph.children id).isEmpty) = true
      · rw [if_pos gone] at reached
        cases reached
        rcases Bool.or_eq_true_iff.mp gone with nothing | leaf
        · exact .inl ((printsNothing_iff printed).mp nothing)
        · exact .inr (.inl (List.isEmpty_iff.mp leaf))
      rw [if_neg gone] at reached
      obtain ⟨prints, filled⟩ := Bool.or_eq_false_iff.mp ((Bool.not_eq_true _).mp gone)
      have holds := List.isEmpty_eq_false_iff.mp filled
      cases aggressive : labels.options.aggressive with
      | false =>
          simp only [aggressive, Bool.not_false, if_true, Except.ok.injEq,
            Prod.mk.injEq] at reached
          obtain ⟨rfl, _⟩ := reached
          cases seen : state.effectiveChildren labels.graph id with
          | nil => exact .inr (.inr (by rw [State.front, seen]; rfl))
          | cons first rest =>
              refine steady_of_plain aggressive printed prints holds ?_
              rw [State.front, seen, List.map_cons]
              exact List.cons_ne_nil _ _
      | true =>
          simp only [aggressive, Bool.not_true, Bool.false_eq_true, if_false] at reached
          split at reached
          next child alone =>
            cases childPrinted : pendingAttributes labels state child.val with
            | error fault =>
                rw [childPrinted] at reached
                cases reached
            | ok childAttributes =>
                rw [childPrinted] at reached
                simp only [Except.map, Except.ok.injEq] at reached
                have front : state.front labels.graph id = [child.val] := by
                  rw [State.front, alone]
                  rfl
                have justified :=
                  onlyChildVerdict_justified aggressive front printed childPrinted prints holds
                rw [reached] at justified
                exact justified
          next _ several =>
            cases reached
            refine contentVerdict_justified aggressive fun content => ?_
            refine steady_of_eager aggressive printed prints holds content fun child alone => ?_
            obtain ⟨only, seen, _⟩ := List.map_eq_singleton_iff.mp alone
            exact absurd seen (several only)

/-- A steady group is kept. -/
theorem verdict_of_steady
    (steady : Steady labels state id) :
    ∃ reports, verdict labels state id = .ok (.keep, reports) := by
  obtain ⟨attributes, printed⟩ := pending_ok_iff.mpr steady.expressible
  have prints : attributes.isEmpty = false := by
    rw [← Bool.not_eq_true, printsNothing_iff printed]
    exact fun nothing => steady.prints nothing.1 nothing.2
  have holds : (labels.graph.children id).isEmpty = false :=
    List.isEmpty_eq_false_iff.mpr steady.holds
  unfold verdict
  rw [printed]
  simp only [Except.bind, prints, holds, Bool.or_self, Bool.false_eq_true, if_false]
  cases aggressive : labels.options.aggressive with
  | false =>
      have sees : (state.effectiveChildren labels.graph id).isEmpty = false := by
        rw [List.isEmpty_eq_false_iff]
        intro nothing
        exact steady.sees aggressive (by rw [State.front, nothing]; rfl)
      exact ⟨[], by simp [sees]⟩
  | true =>
      have kept : contentVerdict labels id = .keep := by
        rw [contentVerdict, steady.content aggressive]
        rfl
      simp only [Bool.not_true, Bool.false_eq_true, if_false]
      split
      next child alone =>
        have front : state.front labels.graph id = [child.val] := by
          rw [State.front, alone]
          rfl
        obtain ⟨childAttributes, childPrinted⟩ :=
          pending_ok_iff.mpr (steady.childExpressible aggressive child.val front)
        have unfolded : mayFold labels child.val attributes childAttributes = false := by
          rw [← Bool.not_eq_true, mayFold_iff aggressive printed childPrinted]
          exact steady.unfolded aggressive child.val front
        have cancels := cancels_iff aggressive printed child.val
        rw [childPrinted, Except.map, onlyChildVerdict, unfolded, kept]
        by_cases opposite :
            ((labels.graph.node child.val).kind.isGroup && attributes.isOnly .rotation
              && rotationsCancel labels state id child.val) = true
        · have stays : isDisposable labels child.val = false := by
            rw [← Bool.not_eq_true]
            exact fun disposable =>
              steady.uncancelled aggressive child.val front (cancels.mp ⟨opposite, disposable⟩)
          simp [opposite, stays]
        · simp [opposite]
      next => exact ⟨[], by rw [kept]⟩

end Verdicts

end SceneMarkup.Pruning
