import SceneMarkup.Proofs.Faults

namespace SceneMarkup.Markup

open Scene

/-!
# Settings that pruning does not look at

A run reads all attributes of a group.  Of any other only child it reads whether a
transform is printed.  Whether nodes are drawn through instances, cast shadows or
are written with their names shows in neither, so two runs under settings that agree
on the rest go through the same states.
-/

/-- Two settings that print transforms and user data alike. -/
structure PrintAlike (options other : Options) : Prop where
  precision : other.precision = options.precision
  includeData : other.includeData = options.includeData

section Printing

variable {graph : SceneGraph} {index otherIndex : InstanceIndex} {options other : Options}
  {id : NodeId}

/-- Shadows aside, which meshes alone are given, the attributes of a node depend on two settings. -/
theorem NodeContext.attributes_of_unmeshed
    {context : NodeContext}
    (unmeshed : context.node.kind.isMesh = false)
    (alike : PrintAlike context.options other)
    (transform : Transform) :
    { context with options := other }.attributes transform = context.attributes transform := by
  have unshaded :
      ∀ settings : Options, { context with options := settings }.blanketShadows = false := by
    intro settings
    rw [blanketShadows, unmeshed, Bool.and_false]
  have own : { context with options := other }.ownBlock = context.ownBlock := by
    unfold ownBlock
    rw [unshaded, unshaded context.options, alike.precision]
  have camera : { context with options := other }.cameraBlock = context.cameraBlock := by
    rw [cameraBlock, cameraBlock, alike.precision]
  have data : { context with options := other }.dataBlock = context.dataBlock := by
    rw [dataBlock, dataBlock, alike.includeData]
  have surface : { context with options := other }.surfaceBlock = context.surfaceBlock := rfl
  have color : { context with options := other }.colorBlock = context.colorBlock := rfl
  rw [attributes, attributes, shadowBlock, shadowBlock, unshaded, unshaded context.options, own,
    camera, data, surface, color, alike.precision]

/-- Nodes that are no meshes print the same attributes at the same place. -/
theorem attributesAt_of_unmeshed
    (alike : PrintAlike options other)
    (unmeshed : (graph.node id).kind.isMesh = false)
    (transform : Transform) :
    attributesAt (.ofGraph graph otherIndex other) id transform =
      attributesAt (.ofGraph graph index options) id transform := by
  have alone :
      ∀ (shared : InstanceIndex) (settings : Options),
        (Labels.ofGraph graph shared settings).sharedPair? id = none := by
    intro shared settings
    have notPlain : (graph.node id).kind.isPlainMesh = false := by
      cases kind : (graph.node id).kind <;>
        simp [kind, NodeKind.isMesh, NodeKind.isPlainMesh] at unmeshed ⊢
    simp [Labels.sharedPair?, Labels.ofGraph, notPlain]
  have context :
      NodeContext.ofLabels (.ofGraph graph otherIndex other) id =
        { NodeContext.ofLabels (.ofGraph graph index options) id with options := other } := by
    rw [NodeContext.ofLabels, NodeContext.ofLabels, alone, alone]
    rfl
  rw [attributesAt, context]
  exact NodeContext.attributes_of_unmeshed unmeshed alike transform

/-- What pruning reads of the attributes of a node under two settings: the faults are the same, so
is whether there is a transform, and so are all attributes of a node that is no mesh. -/
inductive ReadAlike (isMesh : Bool) :
    Except Malformed Attributes → Except Malformed Attributes → Prop
  | error (fault : Malformed) : ReadAlike isMesh (.error fault) (.error fault)
  | ok
      (attributes others : Attributes)
      (transform : others.hasTransform = attributes.hasTransform)
      (whole : isMesh = false → others = attributes) :
      ReadAlike isMesh (.ok attributes) (.ok others)

/-- The attributes of a node are read alike under settings that print alike. -/
theorem attributesAt_alike
    (alike : PrintAlike options other)
    (index otherIndex : InstanceIndex)
    (transform : Transform) :
    ReadAlike (graph.node id).kind.isMesh
      (attributesAt (.ofGraph graph index options) id transform)
      (attributesAt (.ofGraph graph otherIndex other) id transform) := by
  cases printed : attributesAt (.ofGraph graph index options) id transform with
  | error fault =>
      have defect := defect_of_attributesAt printed
      cases otherPrinted : attributesAt (.ofGraph graph otherIndex other) id transform with
      | error reason =>
          obtain rfl : reason = fault :=
            (defect_of_attributesAt otherPrinted).named.trans defect.named.symm
          exact .error reason
      | ok others =>
          have expressible := attributesAt_ok_iff.mp ⟨others, otherPrinted⟩
          have inexpressible : isExpressible (graph.node id) = false := defect.inexpressible
          exact absurd (expressible.symm.trans inexpressible) (by decide)
  | ok attributes =>
      have expressible : isExpressible (graph.node id) = true :=
        attributesAt_ok_iff.mp ⟨attributes, printed⟩
      obtain ⟨others, otherPrinted⟩ :
          ∃ others, attributesAt (.ofGraph graph otherIndex other) id transform = .ok others :=
        attributesAt_ok_iff.mpr expressible
      rw [otherPrinted]
      refine .ok attributes others ?_ fun unmeshed => ?_
      · rw [hasTransform_attributesAt otherPrinted, hasTransform_attributesAt printed]
        simp only [printedTransform, Labels.ofGraph, alike.precision]
      · rw [attributesAt_of_unmeshed alike unmeshed, printed] at otherPrinted
        exact (Except.ok.inj otherPrinted).symm

end Printing

end SceneMarkup.Markup

namespace SceneMarkup.Pruning

open Scene Markup

/-- Two settings that pruning cannot tell apart. -/
structure PruneAlike (options other : Options) : Prop extends PrintAlike options other where
  keepGroups : other.keepGroups = options.keepGroups
  aggressive : other.aggressive = options.aggressive

section Runs

variable {graph : SceneGraph} {options other : Options}

theorem graph_ofGraph
    (graph : SceneGraph)
    (index : InstanceIndex)
    (options : Options) :
    (Labels.ofGraph graph index options).graph = graph := rfl

/-- A node is disposable under settings that keep groups alike. -/
theorem isDisposable_alike
    (keepGroups : other.keepGroups = options.keepGroups)
    (index otherIndex : InstanceIndex)
    (id : NodeId) :
    isDisposable (.ofGraph graph otherIndex other) id =
      isDisposable (.ofGraph graph index options) id := by
  rw [isDisposable, isDisposable]
  simp only [Labels.ofGraph, keepGroups]
  rfl

/-- Rotations cancel under settings that print alike. -/
theorem rotationsCancel_alike
    (alike : PrintAlike options other)
    (index otherIndex : InstanceIndex)
    (state : State)
    (outer inner : NodeId) :
    rotationsCancel (.ofGraph graph otherIndex other) state outer inner =
      rotationsCancel (.ofGraph graph index options) state outer inner := by
  simp only [rotationsCancel, Labels.ofGraph, alike.precision]

/-- A group is no mesh. -/
theorem unmeshed_of_group
    {kind : NodeKind}
    (group : kind.isGroup = true) :
    kind.isMesh = false := by
  cases kind <;> simp [NodeKind.isGroup, NodeKind.isMesh] at group ⊢

/-- An only child is judged alike: whatever it is, its transform counts, and if it is a group, so
do its other attributes. -/
theorem onlyChildVerdict_alike
    (alike : PruneAlike options other)
    (index otherIndex : InstanceIndex)
    (state : State)
    (id : NodeId)
    (child : graph.Later id)
    (attributes : Attributes)
    {childAttributes otherChild : Attributes}
    (transform : otherChild.hasTransform = childAttributes.hasTransform)
    (whole : (graph.node child.val).kind.isMesh = false → otherChild = childAttributes) :
    onlyChildVerdict (.ofGraph graph otherIndex other) state id child attributes otherChild =
      onlyChildVerdict (.ofGraph graph index options) state id child attributes
        childAttributes := by
  have folds :
      mayFold (.ofGraph graph otherIndex other) child.val attributes otherChild =
        mayFold (.ofGraph graph index options) child.val attributes childAttributes := by
    rw [mayFold, mayFold, transform]
    rfl
  have content :
      contentVerdict (.ofGraph graph otherIndex other) id =
        contentVerdict (.ofGraph graph index options) id := rfl
  unfold onlyChildVerdict
  rw [folds, content, isDisposable_alike alike.keepGroups index otherIndex,
    rotationsCancel_alike alike.toPrintAlike index otherIndex]
  cases group : (graph.node child.val).kind.isGroup with
  | true =>
      rw [whole (unmeshed_of_group group)]
      rfl
  | false => simp [Labels.ofGraph, group]

/-- The same is decided on an only child under settings that prune alike. -/
theorem map_onlyChildVerdict_alike
    (alike : PruneAlike options other)
    (index otherIndex : InstanceIndex)
    (state : State)
    (id : NodeId)
    (child : graph.Later id)
    (attributes : Attributes) :
    (pendingAttributes (.ofGraph graph otherIndex other) state child.val).map
        (onlyChildVerdict (.ofGraph graph otherIndex other) state id child attributes) =
      (pendingAttributes (.ofGraph graph index options) state child.val).map
        (onlyChildVerdict (.ofGraph graph index options) state id child attributes) := by
  have read :
      ReadAlike (graph.node child.val).kind.isMesh
        (pendingAttributes (.ofGraph graph index options) state child.val)
        (pendingAttributes (.ofGraph graph otherIndex other) state child.val) :=
    attributesAt_alike alike.toPrintAlike index otherIndex _
  generalize pendingAttributes (.ofGraph graph index options) state child.val = first at read ⊢
  generalize pendingAttributes (.ofGraph graph otherIndex other) state child.val = second at read ⊢
  cases read with
  | error fault =>
      simp only [Except.map]
      rfl
  | ok childAttributes otherChild transform whole =>
      exact congrArg Except.ok
        (onlyChildVerdict_alike alike index otherIndex state id child attributes transform whole)

/-- An eligible group is judged alike. -/
theorem verdict_alike
    (alike : PruneAlike options other)
    (index otherIndex : InstanceIndex)
    (state : State)
    {id : NodeId}
    (group : (graph.node id).kind.isGroup = true) :
    verdict (.ofGraph graph otherIndex other) state id =
      verdict (.ofGraph graph index options) state id := by
  have pending :
      pendingAttributes (.ofGraph graph otherIndex other) state id =
        pendingAttributes (.ofGraph graph index options) state id :=
    attributesAt_of_unmeshed alike.toPrintAlike (unmeshed_of_group group) _
  have aggressive :
      (Labels.ofGraph graph otherIndex other).options.aggressive =
        (Labels.ofGraph graph index options).options.aggressive := alike.aggressive
  unfold verdict
  rw [pending, aggressive]
  refine congrArg _ (funext fun attributes => ?_)
  refine ite_congr rfl (fun _ => rfl) fun _ => ite_congr rfl (fun _ => rfl) fun _ => ?_
  dsimp only [graph_ofGraph]
  generalize state.effectiveChildren graph id = children
  match children with
  | [] => rfl
  | [child] => exact map_onlyChildVerdict_alike alike index otherIndex state id child attributes
  | _ :: _ :: _ => rfl

/-- What was decided is carried out alike. -/
theorem carryOut_alike
    (index otherIndex : InstanceIndex)
    (state : State)
    (id : NodeId)
    (decision : Verdict graph id) :
    carryOut (.ofGraph graph otherIndex other) state id decision =
      carryOut (.ofGraph graph index options) state id decision := by
  cases decision <;> rfl

/-- What follows a decision is the same if looking at a later node leads to the same outcome. -/
theorem proceed_alike
    (index otherIndex : InstanceIndex)
    (state : State)
    (id : NodeId)
    (decision : Verdict graph id)
    (next :
      ∀ (child : graph.Later id) (between : State),
        rewrite (.ofGraph graph otherIndex other) between child.val =
          rewrite (.ofGraph graph index options) between child.val) :
    proceed (.ofGraph graph otherIndex other) state id decision =
      proceed (.ofGraph graph index options) state id decision := by
  have carried :
      carryOut (.ofGraph graph otherIndex other) state id decision =
        carryOut (.ofGraph graph index options) state id decision :=
    carryOut_alike index otherIndex state id decision
  cases decision with
  | cancelOuter child =>
      exact (congrArg (rewrite _ · child.val) carried).trans (next child _)
  | fold child =>
      exact (congrArg (rewrite _ · child.val) carried).trans (next child _)
  | keep => exact congrArg (Outcome.mk · none) carried
  | empty => exact congrArg (Outcome.mk · none) carried
  | cancelBoth child => exact congrArg (Outcome.mk · none) carried
  | sweep => exact congrArg (Outcome.mk · none) carried

/-- Looking at a node leads to the same outcome. -/
theorem rewrite_alike
    (alike : PruneAlike options other)
    (index otherIndex : InstanceIndex)
    (state : State)
    (id : NodeId) :
    rewrite (.ofGraph graph otherIndex other) state id =
      rewrite (.ofGraph graph index options) state id := by
  induction distance : graph.size - id using Nat.strongRecOn generalizing state id with
  | ind remaining ih =>
      have eligible :
          isEligible (.ofGraph graph otherIndex other) state id =
            isEligible (.ofGraph graph index options) state id := by
        rw [isEligible, isEligible, isDisposable_alike alike.keepGroups index otherIndex]
        rfl
      cases asked : isEligible (.ofGraph graph index options) state id with
      | false =>
          rw [rewrite, rewrite, eligible, asked]
          rfl
      | true =>
          have group : (graph.node id).kind.isGroup = true :=
            (isDisposable_iff.mp (isEligible_iff.mp asked).1).2.1
          have judged := verdict_alike alike index otherIndex state group
          cases reached : verdict (.ofGraph graph index options) state id with
          | error fault => rw [rewrite, rewrite, eligible, asked, judged, reached]
          | ok found =>
              obtain ⟨decision, reports⟩ := found
              rw [rewrite_of_verdict (eligible.trans asked) (judged.trans reached),
                rewrite_of_verdict asked reached]
              refine proceed_alike index otherIndex _ id decision fun child between => ?_
              have closer : graph.size - child.val < remaining := distance ▸ child.closer
              exact ih (graph.size - child.val) closer between child.val rfl

/-- A whole run goes the same way under settings that prune alike. -/
theorem rewriteAll_alike
    (alike : PruneAlike options other)
    (index otherIndex : InstanceIndex)
    (state : State)
    (ids : List NodeId) :
    rewriteAll (.ofGraph graph otherIndex other) state ids =
      rewriteAll (.ofGraph graph index options) state ids := by
  induction ids generalizing state with
  | nil => rfl
  | cons id rest ih =>
      rw [rewriteAll, rewriteAll, rewrite_alike alike index otherIndex]
      cases (rewrite (.ofGraph graph index options) state id).fault with
      | some fault => rfl
      | none => exact ih _

/--
Which groups go does not depend on settings that pruning does not look at, nor on the
index of shared pairs: with the same precision, the same choice about user data, kept
groups and aggressive rules, the plan is the same, or the same fault stops the run.
-/
theorem plan_ignores_settings
    (graph : SceneGraph)
    {options other : Options}
    (alike : PruneAlike options other)
    (index otherIndex : InstanceIndex) :
    (plan (.ofGraph graph otherIndex other)).result =
      (plan (.ofGraph graph index options)).result := by
  have same :
      run (.ofGraph graph otherIndex other) = run (.ofGraph graph index options) :=
    rewriteAll_alike alike index otherIndex _ _
  simp only [plan, same]
  rfl

/-- A jar on a shelf that is one step aside, and its twin on a tray that does nothing. -/
def shelfScene : SceneGraph :=
  let jar : Node := { name := "Jar", kind := .mesh, geometry := some 0, material := some 0 }
  ((((SceneGraph.ofRoot "Scene").add 0 { name := "Shelf", transform := oneStep }).add 1 jar).add 0
    { name := "Tray" }).add 3 jar

/-- Drawn as instances that cast shadows, in a typed module with names, the jars keep their places
and lose the same groups. -/
theorem plan_ignores_settings_shelfScene :
    let options : Options := { aggressive := true }
    let other : Options :=
      { options with
        instanceAll := true, shadows := true, keepNames := true, types := true, header := "Jars" }
    let decided : Plan :=
      ⟨[(1, .transformOverlap), (3, .empty), (0, .empty)], [(2, oneStep)]⟩
    PruneAlike options other ∧
      (plan (.ofGraph shelfScene {} options)).result = .ok decided ∧
      (plan (.ofGraph shelfScene (InstanceIndex.analyze shelfScene other) other)).result =
        .ok decided := by
  intro options other decided
  have alike : PruneAlike options other := ⟨⟨rfl, rfl⟩, rfl, rfl⟩
  have found : (plan (.ofGraph shelfScene {} options)).result = .ok decided := by
    decide +kernel
  exact ⟨alike, found, (plan_ignores_settings shelfScene alike {} _).trans found⟩

end Runs

end SceneMarkup.Pruning
