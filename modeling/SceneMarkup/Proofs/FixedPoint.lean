import SceneMarkup.Proofs.Planning

namespace SceneMarkup.Pruning

open Scene Markup

/-!
# Pruning once is enough

In the tree that a plan leads to, every group that may go was settled when the
plan was made.  What it sees there is what it saw then, folded nodes replaced by
their targets, which stand where the folded nodes stood; so no rule that did not
apply then applies now, and a second run decides nothing.
-/

theorem transform_start
    (graph : SceneGraph)
    (id : NodeId) :
    (State.start graph).transform graph id = (graph.node id).transform := by
  rw [State.transform, mark_start]
  rfl

theorem front_start
    {graph : SceneGraph}
    (linked : graph.Linked)
    (id : NodeId) :
    (State.start graph).front graph id = graph.children id :=
  State.front_of_stays linked fun child _ => by rw [State.removal, mark_start]

/-- Groups that are steady leave the rest of a walk as it is; at most something is reported. -/
theorem rewriteAll_of_steady
    {labels : Labels}
    (linked : labels.graph.Linked)
    {state : State}
    {ids : List NodeId}
    (steady :
      ∀ id ∈ ids, isEligible labels state id = true → Steady labels state id) :
    ∃ reports : List Report,
      rewriteAll labels state ids = ⟨reports.foldl State.report state, none⟩ := by
  induction ids generalizing state with
  | nil => exact ⟨[], rfl⟩
  | cons id rest ih =>
      obtain ⟨first, kept⟩ := rewrite_of_steady (steady id List.mem_cons_self)
      obtain ⟨marks, _⟩ := reports_marks first state
      have mark : (first.foldl State.report state).mark = state.mark := by
        funext node
        simp only [State.mark, marks]
      have steadyStill :
          ∀ id ∈ rest,
            isEligible labels (first.foldl State.report state) id = true →
              Steady labels (first.foldl State.report state) id := by
        intro node member eligible
        have removal : ∀ lower, (first.foldl State.report state).removal lower =
            state.removal lower :=
          fun lower => removal_of_mark (congrFun mark lower)
        rw [isEligible_of_removal (removal node)] at eligible
        refine (steady node (List.mem_cons_of_mem _ member) eligible).transfer
          (State.front_congr linked fun lower _ _ => removal lower) fun _ => ?_
        exact ⟨transform_of_replacement (by rw [mark]),
          fun child _ => transform_of_replacement (by rw [mark])⟩
      obtain ⟨others, keptAll⟩ := ih steadyStill
      refine ⟨first ++ others, ?_⟩
      rw [rewriteAll, kept, List.foldl_append]
      exact keptAll

/-- Where everything met is steady at the start, the plan is empty. -/
theorem plan_of_steady
    {labels : Labels}
    (linked : labels.graph.Linked)
    (steady :
      ∀ id ∈ labels.graph.innermostFirst SceneGraph.root,
        isEligible labels (State.start labels.graph) id = true →
          Steady labels (State.start labels.graph) id) :
    (plan labels).result = .ok ⟨[], []⟩ := by
  obtain ⟨reports, kept⟩ := rewriteAll_of_steady linked steady
  obtain ⟨_, order⟩ := reports_marks reports (State.start labels.graph)
  have nothing : planOf labels.graph (reports.foldl State.report (State.start labels.graph)) =
      ⟨[], []⟩ := by
    have undecided : (State.start labels.graph).order = [] := rfl
    unfold planOf
    rw [order, undecided]
    simp [mark_start]
  simp only [plan, run, kept, nothing]

section Again

variable {labels other : Labels} {settled : NodeId → Prop} {final : State}

/-- What is seen stays and stands for itself, or it is a group folded onto its stand-in. -/
theorem standIn_cases
    (sound : Sound labels settled final)
    {id : NodeId}
    (shows : final.shows id = true) :
    (final.removal id = none ∧ final.standIn id = id) ∨
      ∃ push,
        FoldedOnto labels final id push ∧ isDisposable labels id = true ∧
          final.standIn id = push.target := by
  rcases State.shows_iff.mp shows with stays | removed
  · exact .inl ⟨stays, State.standIn_of_stays stays⟩
  · obtain ⟨push, folded⟩ := (sound.node id).folded removed
    exact .inr ⟨push, folded, (sound.node id).disposable (by simp [removed]),
      State.standIn_of_recorded removed folded.recorded⟩

/-- A node that the new tree reaches was reached before, and keeps its place. -/
theorem reached_finalTree
    (linked : labels.graph.Linked)
    {id : NodeId}
    (reached : (finalTree labels final).Reaches SceneGraph.root id) :
    labels.graph.Reaches SceneGraph.root id ∧ (finalMarks labels final).stays id = true := by
  have marked := sameLinks_markPlan labels.graph (planOf labels.graph final)
  have listed := (linked_commit linked (planOf labels.graph final)).mem_traverse.mpr reached
  rw [traverse_commit linked, List.mem_filter, linked.mem_traverse] at listed
  refine ⟨listed.1, ?_⟩
  have stays := listed.2
  rw [stays_commit] at stays
  exact stays

/-- Nodes that may not go keep their place in the new tree. -/
theorem stays_of_not_disposable
    (linked : labels.graph.Linked)
    (tidy : Tidy labels.graph)
    (sound : Sound labels settled final)
    {id : NodeId}
    (reached : labels.graph.Reaches SceneGraph.root id)
    (needed : isDisposable labels id = false) :
    id = SceneGraph.root ∨ (finalMarks labels final).isRemoved id = false := by
  by_cases atRoot : id = SceneGraph.root
  · exact .inl atRoot
  · refine .inr ?_
    rw [isRemoved_finalMarks linked tidy sound reached atRoot, Option.isSome_eq_false_iff,
      Option.isNone_iff_eq_none]
    by_contra removed
    have disposable := (sound.node id).disposable (Option.isSome_iff_ne_none.mpr removed)
    rw [needed] at disposable
    cases disposable

/-- A group that may go in the new tree was settled in the run and stays. -/
theorem settled_of_met
    (linked : labels.graph.Linked)
    (tidy : Tidy labels.graph)
    (sound : Sound labels settled final)
    (redrawn : Labels.Redrawn labels other)
    (tree : other.graph = finalTree labels final)
    {id : NodeId}
    (met : id ∈ other.graph.innermostFirst SceneGraph.root)
    (present : other.graph.isRemoved id = false) :
    id ∈ labels.graph.innermostFirst SceneGraph.root ∧ labels.graph.isRemoved id = false ∧
      final.removal id = none ∧ (finalMarks labels final).isRemoved id = false := by
  have treeLinked : (finalTree labels final).Linked := linked_commit linked _
  rw [tree] at met present
  have here := treeLinked.mem_innermostFirst.mp met
  obtain ⟨reached, _⟩ := reached_finalTree linked here.reaches
  have kept : (finalMarks labels final).isRemoved id = false := by
    rw [finalTree, isRemoved_commit] at present
    exact present
  have inside := linked.inside_of_reached reached
  have unmarked : labels.graph.isRemoved id = false ∧ final.removal id = none := by
    have marks := kept
    rw [finalMarks, isRemoved_markPlan (linked.marked.symm ▸ inside), removes_planOf sound] at marks
    simpa using marks
  refine ⟨linked.mem_innermostFirst.mpr ⟨reached, fun middle down up => ?_⟩, unmarked.1,
    unmarked.2, kept⟩
  -- A bone on the way would be on the way in the new tree, too.
  by_contra bone
  rw [Bool.not_eq_false] at bone
  have needed : isDisposable labels middle = false := by
    rw [← Bool.not_eq_true]
    intro disposable
    have notBone := not_bone_of_group (isDisposable_iff.mp disposable).2.1
    rw [bone] at notBone
    cases notBone
  have place := stays_of_not_disposable linked tidy sound down needed
  have middleStays : (finalMarks labels final).stays middle = true := by
    rcases place with atRoot | survives
    · simp [SceneGraph.stays, atRoot]
    · simp [SceneGraph.stays, survives]
  have toMiddle : (finalTree labels final).Reaches SceneGraph.root middle := by
    refine (reaches_commit_iff linked _ (SceneGraph.Reaches.refl _)
      (by simp [SceneGraph.stays])).mpr ?_
    rcases place with atRoot | survives
    · exact .inl atRoot.symm
    · exact .inr ⟨down, survives⟩
  have fromMiddle : (finalTree labels final).Reaches middle id :=
    (reaches_commit_iff linked _ down middleStays).mpr (.inr ⟨up, kept⟩)
  have notBone := here.boneless middle toMiddle fromMiddle
  rw [← tree, redrawn.kind, bone] at notBone
  cases notBone

/-- A group with content has some in the new tree, too. -/
theorem hasContent_again
    (linked : labels.graph.Linked)
    (tidy : Tidy labels.graph)
    (sound : Sound labels settled final)
    (redrawn : Labels.Redrawn labels other)
    (tree : other.graph = finalTree labels final)
    {id : NodeId}
    (reached : labels.graph.Reaches SceneGraph.root id)
    (kept : (finalMarks labels final).isRemoved id = false)
    (disposable : isDisposable labels id = true)
    (content : hasContent labels id = true) :
    hasContent other id = true ∧ other.graph.children id ≠ [] := by
  have treeLinked : (finalTree labels final).Linked := linked_commit linked _
  rw [hasContent, List.any_eq_true] at content
  obtain ⟨lower, listed, drawn⟩ := content
  have reaches := linked.mem_traverse.mp listed
  have needed : isDisposable labels lower = false := by
    rw [← Bool.not_eq_true]
    intro lowerDisposable
    obtain ⟨_, group, notRelevant⟩ := isDisposable_iff.mp lowerDisposable
    simp [group, notRelevant] at drawn
  have differ : id ≠ lower := by
    rintro rfl
    rw [disposable] at needed
    cases needed
  have survives : (finalMarks labels final).isRemoved lower = false := by
    rcases stays_of_not_disposable linked tidy sound (reached.trans reaches) needed with
      atRoot | survives
    · rw [atRoot] at reaches differ
      exact absurd (linked.eq_root_of_reaches reaches) differ
    · exact survives
  have stays : (finalMarks labels final).stays id = true := by
    simp [SceneGraph.stays, kept]
  have still : (finalTree labels final).Reaches id lower :=
    (reaches_commit_iff linked _ reached stays).mpr (.inr ⟨reaches, survives⟩)
  constructor
  · rw [hasContent, List.any_eq_true]
    refine ⟨lower, ?_, ?_⟩
    · rw [tree]
      exact treeLinked.mem_traverse.mpr still
    · rw [redrawn.kind, redrawn.isRelevant]
      exact drawn
  · intro leaf
    rcases SceneGraph.Reaches.head_iff.mp still with same | ⟨child, member, _⟩
    · exact differ same
    · rw [tree] at leaf
      rw [leaf] at member
      cases member

theorem isDisposable_again
    (redrawn : Labels.Redrawn labels other)
    (id : NodeId) :
    isDisposable other id = isDisposable labels id := by
  rw [isDisposable, isDisposable, redrawn.options, redrawn.kind, redrawn.isRelevant]

/-- Two groups rotate against each other in the new tree if they did so in the final state. -/
theorem rotationsCancel_again
    (redrawn : Labels.Redrawn labels other)
    {outer inner seen : NodeId}
    (outerPlaced : (other.graph.node outer).transform = final.transform labels.graph outer)
    (innerPlaced : (other.graph.node inner).transform = final.transform labels.graph seen) :
    rotationsCancel other (State.start other.graph) outer inner =
      rotationsCancel labels final outer seen := by
  simp only [rotationsCancel, transform_start, outerPlaced, innerPlaced, redrawn.options]

/-- What a settled group sees as its only child, and what it has in the new tree in its place. -/
structure OnlyChild (labels : Labels) (final : State) (id seen child : NodeId) : Prop where
  alone : final.front labels.graph id = [seen]
  expressible :
    isExpressible (labels.graph.node seen) = true →
      isExpressible (labels.graph.node child) = true
  placed : final.transform labels.graph child = final.transform labels.graph seen
  group :
    (labels.graph.node child).kind.isGroup = true →
      (labels.graph.node seen).kind.isGroup = true
  disposable : isDisposable labels child = true → isDisposable labels seen = true
  same :
    printedTransform labels (final.transform labels.graph child) = [] → child = seen

/-- An only child in the new tree stands in for the only node seen in the final state. -/
theorem onlyChild_again
    (linked : labels.graph.Linked)
    (tidy : Tidy labels.graph)
    (sound : Sound labels settled final)
    {id child : NodeId}
    (reached : labels.graph.Reaches SceneGraph.root id)
    (stays : (finalMarks labels final).stays id = true)
    (alone : (finalTree labels final).children id = [child]) :
    ∃ seen,
      OnlyChild labels final id seen child ∧ labels.graph.Reaches SceneGraph.root child ∧
        final.removal child = none := by
  rw [children_finalTree linked tidy sound reached stays] at alone
  obtain ⟨seen, front, rfl⟩ := List.map_eq_singleton_iff.mp alone
  have listed : seen ∈ final.front labels.graph id := by simp [front]
  obtain ⟨exposes, shows⟩ := (State.mem_front linked).mp listed
  have seenReached := reached.trans exposes.reaches
  refine ⟨seen, ?_⟩
  rcases standIn_cases sound shows with ⟨seenStays, itself⟩ | ⟨push, folded, disposable, target⟩
  · rw [itself]
    refine ⟨⟨front, fun holds => holds, rfl, fun holds => holds, fun holds => holds,
      fun _ => rfl⟩, seenReached, seenStays⟩
  · rw [target]
    refine ⟨⟨front, fun _ => folded.expressible, folded.transform_target,
      fun _ => (isDisposable_iff.mp disposable).2.1, fun _ => disposable, fun resting => ?_⟩,
      seenReached.trans (folded.exposes linked).reaches, folded.stays⟩
    rw [folded.transform_target] at resting
    exact absurd resting folded.moving

/-- Groups that cancel against each other in the new tree did so in the final state. -/
theorem OnlyChild.cancels
    (redrawn : Labels.Redrawn labels other)
    {id seen child : NodeId}
    (only : OnlyChild labels final id seen child)
    (disposable : isDisposable labels id = true)
    (placed : (other.graph.node id).transform = final.transform labels.graph id)
    (childPlaced : (other.graph.node child).transform = final.transform labels.graph child)
    (cancels : Cancels other (State.start other.graph) id child) :
    Cancels labels final id seen := by
  have bare : isBare other id = isBare labels id :=
    redrawn.isBare_of_group (isDisposable_iff.mp disposable).2.1
  refine ⟨?_, bare ▸ cancels.bare, ?_, ?_, ?_, redrawn.options ▸ cancels.aggressive⟩
  · exact only.group (redrawn.kind child ▸ cancels.group)
  · have turning := cancels.turning
    rw [transform_start, redrawn.printedTransform, placed] at turning
    exact turning
  · rw [← rotationsCancel_again redrawn placed (childPlaced.trans only.placed)]
    exact cancels.opposite
  · exact only.disposable (isDisposable_again redrawn child ▸ cancels.disposable)

/-- A group that folds in the new tree would have folded onto the node seen in the final state. -/
theorem OnlyChild.folds
    (redrawn : Labels.Redrawn labels other)
    {id seen child : NodeId}
    (only : OnlyChild labels final id seen child)
    (disposable : isDisposable labels id = true)
    (placed : (other.graph.node id).transform = final.transform labels.graph id)
    (childPlaced : (other.graph.node child).transform = final.transform labels.graph child)
    (folds : Folds other (State.start other.graph) id child) :
    Folds labels final id seen := by
  have bare : isBare other id = isBare labels id :=
    redrawn.isBare_of_group (isDisposable_iff.mp disposable).2.1
  have resting := folds.resting
  rw [transform_start, redrawn.printedTransform, childPlaced] at resting
  have itself := only.same resting
  subst itself
  have moving := folds.moving
  rw [transform_start, redrawn.printedTransform, placed] at moving
  have expressible := folds.expressible
  rw [redrawn.isExpressible] at expressible
  exact ⟨bare ▸ folds.bare, moving, resting, expressible, redrawn.kind child ▸ folds.notBone,
    redrawn.isRelevant child ▸ folds.notRelevant, redrawn.options ▸ folds.aggressive⟩

/-- A group that may go in the new tree is steady there. -/
theorem steady_again
    (linked : labels.graph.Linked)
    (tidy : Tidy labels.graph)
    (sound : Sound labels (· ∈ labels.graph.innermostFirst SceneGraph.root) final)
    (redrawn : Labels.Redrawn labels other)
    (tree : other.graph = finalTree labels final)
    {id : NodeId}
    (met : id ∈ other.graph.innermostFirst SceneGraph.root)
    (eligible : isEligible other (State.start other.graph) id = true) :
    Steady other (State.start other.graph) id := by
  obtain ⟨disposableAfter, present, _⟩ := isEligible_iff.mp eligible
  obtain ⟨listed, unmarked, stays, kept⟩ :=
    settled_of_met linked tidy sound redrawn tree met present
  have reached := (linked.mem_innermostFirst.mp listed).reaches
  have disposable : isDisposable labels id = true := by
    rw [← isDisposable_again redrawn, disposableAfter]
  have steady : Steady labels final id :=
    (sound.node id).steady listed (isEligible_iff.mpr ⟨disposable, unmarked, stays⟩)
  have keeps : (finalMarks labels final).stays id = true := by
    simp [SceneGraph.stays, kept]
  have otherLinked : other.graph.Linked := by
    rw [tree]
    exact linked_commit linked _
  have front : (State.start other.graph).front other.graph id =
      (finalTree labels final).children id := by
    rw [front_start otherLinked, tree]
  have placed : (other.graph.node id).transform = final.transform labels.graph id := by
    rw [tree]
    exact transform_finalTree linked reached stays
  have bare : isBare other id = isBare labels id :=
    redrawn.isBare_of_group (isDisposable_iff.mp disposable).2.1
  have again :=
    hasContent_again linked tidy sound redrawn tree reached kept disposable
  have holds : other.graph.children id ≠ [] := by
    cases aggressive : labels.options.aggressive with
    | true => exact (again (steady.content aggressive)).2
    | false =>
        rw [tree, children_finalTree linked tidy sound reached keeps]
        exact mt List.map_eq_nil_iff.mp (steady.sees aggressive)
  have child_again :
      other.options.aggressive = true →
        ∀ child, (State.start other.graph).front other.graph id = [child] →
          isExpressible (other.graph.node child) = true ∧
            ¬ Cancels other (State.start other.graph) id child ∧
            ¬ Folds other (State.start other.graph) id child := by
    intro aggressive child alone
    rw [redrawn.options] at aggressive
    rw [front] at alone
    obtain ⟨seen, only, childReached, childStays⟩ :=
      onlyChild_again linked tidy sound reached keeps alone
    have childAt : (other.graph.node child).transform = final.transform labels.graph child := by
      rw [tree]
      exact transform_finalTree linked childReached childStays
    refine ⟨?_, fun cancels => ?_, fun folds => ?_⟩
    · rw [redrawn.isExpressible]
      exact only.expressible (steady.childExpressible aggressive seen only.alone)
    · exact steady.uncancelled aggressive seen only.alone
        (only.cancels redrawn disposable placed childAt cancels)
    · exact steady.unfolded aggressive seen only.alone
        (only.folds redrawn disposable placed childAt folds)
  exact {
    expressible := by
      rw [redrawn.isExpressible]
      exact steady.expressible
    prints := by
      rw [bare, transform_start, redrawn.printedTransform, placed]
      exact steady.prints
    holds := holds
    sees := fun _ => by
      rw [front_start otherLinked]
      exact holds
    content := fun aggressive =>
      (again (steady.content (redrawn.options ▸ aggressive))).1
    childExpressible := fun aggressive child alone => (child_again aggressive child alone).1
    uncancelled := fun aggressive child alone => (child_again aggressive child alone).2.1
    unfolded := fun aggressive child alone => (child_again aggressive child alone).2.2 }

end Again

/--
Pruning reaches a fixed point in one run: a plan for the tree that a plan was
committed to changes nothing, with the same settings and whatever index of shared
pairs the labels are read with.
-/
theorem plan_commit_idle
    {graph : SceneGraph}
    {index : InstanceIndex}
    {options : Options}
    {decided : Plan}
    (linked : graph.Linked)
    (tidy : Tidy graph)
    (found : (plan (Labels.ofGraph graph index options)).result = .ok decided)
    (otherIndex : InstanceIndex) :
    (plan (Labels.ofGraph (commit graph decided) otherIndex options)).result = .ok ⟨[], []⟩ := by
  have labelsLinked : (Labels.ofGraph graph index options).graph.Linked := linked
  obtain ⟨final, rfl, _, sound⟩ := plan_spec labelsLinked found
  have redrawn :=
    Labels.redrawn_commit linked (planOf graph final) index otherIndex options
  refine plan_of_steady (linked_commit linked _) fun id met eligible => ?_
  exact steady_again labelsLinked tidy sound redrawn rfl met eligible

/-- One step along the first axis. -/
def oneStep : Transform :=
  { Transform.identity with position := ⟨1.0, 0.0, 0.0⟩ }

/-- A group that shifts the mesh in it, beside a group that does nothing for two meshes. -/
def shiftedScene : SceneGraph :=
  (((((SceneGraph.ofRoot "Scene").add 0 { name := "Shift", transform := oneStep }).add 1
    { name := "Box", kind := .mesh }).add 0 { name := "Wrapper" }).add 3
    { name := "Ball", kind := .mesh }).add 3 { name := "Cone", kind := .mesh }

theorem linked_shiftedScene : shiftedScene.Linked ∧ shiftedScene.Untouched :=
  ⟨(((((SceneGraph.linked_ofRoot "Scene").add (by decide) _).add (by decide) _).add
      (by decide) _).add (by decide) _).add (by decide) _,
    SceneGraph.untouched_of_not_mem (by decide)⟩

/-- The shift is folded onto its mesh and the groups go at once; then nothing is left to do. -/
theorem plan_commit_idle_shiftedScene :
    let options : Options := { aggressive := true }
    let decided : Plan :=
      ⟨[(1, .transformOverlap), (3, .empty), (0, .empty)], [(2, oneStep)]⟩
    let pruned := commit shiftedScene decided
    (plan (Labels.ofGraph shiftedScene {} options)).result = .ok decided ∧
      (plan (Labels.ofGraph pruned (InstanceIndex.analyze pruned options) options)).result =
        .ok ⟨[], []⟩ := by
  intro options decided pruned
  obtain ⟨linked, untouched⟩ := linked_shiftedScene
  have found : (plan (Labels.ofGraph shiftedScene {} options)).result = .ok decided := by
    decide +kernel
  exact ⟨found, plan_commit_idle linked (tidy_of_untouched untouched) found _⟩

end SceneMarkup.Pruning
