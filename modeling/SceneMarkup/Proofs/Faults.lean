import SceneMarkup.Proofs.Instances

namespace SceneMarkup.Markup

open Scene

/-!
# Which conversions fail

Only a mesh that draws copies of itself can be impossible to write, and only if
it lacks its geometry or its material.  Such a mesh is never pruned, so wherever
its attributes are asked for, be it for the mesh itself or while the group above
it is looked at, it would be asked for them again when the markup is written.
-/

/-- The node cannot be written, and the fault names it. -/
structure Defect
    (labels : Labels)
    (id : NodeId)
    (fault : Malformed) :
    Prop where
  inexpressible : isExpressible (labels.graph.node id) = false
  named : fault = .missingSurface (labels.name id)

/--
A node cannot be expressed exactly if it is an instanced mesh that lacks geometry or
material.
-/
theorem isExpressible_eq_false_iff
    {node : Node} :
    isExpressible node = false ↔
      node.kind.isInstancedMesh = true ∧ (node.geometry = none ∨ node.material = none) := by
  simp [isExpressible, imp_iff_not_or]

/-- What cannot be expressed is no bone. -/
theorem not_bone_of_inexpressible
    {node : Node}
    (inexpressible : isExpressible node = false) :
    node.kind.isBone = false := by
  have copies := (isExpressible_eq_false_iff.mp inexpressible).1
  cases kind : node.kind <;> simp [kind, NodeKind.isInstancedMesh, NodeKind.isBone] at copies ⊢

/-- Attributes that cannot be written are those of a node that cannot be expressed. -/
theorem defect_of_attributesAt
    {labels : Labels}
    {id : NodeId}
    {transform : Transform}
    {fault : Malformed}
    (failed : attributesAt labels id transform = .error fault) :
    Defect labels id fault where
  inexpressible := by
    by_contra expressible
    rw [Bool.not_eq_false] at expressible
    have printed : ∃ written, attributesAt labels id transform = .ok written :=
      attributesAt_ok_iff.mpr expressible
    obtain ⟨written, succeeded⟩ := printed
    rw [failed] at succeeded
    cases succeeded
  named := by
    rw [attributesAt, NodeContext.attributes] at failed
    by_cases instanced : (NodeContext.ofLabels labels id).instanced = true
    · rw [if_pos instanced] at failed
      cases failed
    · rw [if_neg instanced] at failed
      unfold NodeContext.surfaceBlock at failed
      split at failed
      next =>
        split at failed
        next =>
          cases failed
          rfl
        next =>
          cases failed
      next =>
        cases failed

/-- A row of steps fails only where one of them does. -/
theorem exists_error_of_mapM
    {step : α → Except ε β}
    {items : List α}
    {fault : ε}
    (failed : items.mapM step = .error fault) :
    ∃ item ∈ items, step item = .error fault := by
  induction items with
  | nil =>
      cases failed
  | cons item rest ih =>
      rw [List.mapM_cons] at failed
      cases first : step item with
      | error reason =>
          rw [first] at failed
          cases failed
          exact ⟨item, List.mem_cons_self, first⟩
      | ok part =>
          cases others : rest.mapM step with
          | error reason =>
              rw [first, others] at failed
              cases failed
              obtain ⟨other, member, same⟩ := ih others
              exact ⟨other, List.mem_cons_of_mem _ member, same⟩
          | ok parts =>
              rw [first, others] at failed
              cases failed

/-- A node that cannot be written stops the elements of all nodes above it, and nothing else
does. -/
theorem exists_defect_of_elementsOf
    {labels : Labels}
    (linked : labels.graph.Linked)
    {id : NodeId}
    (bonesStay :
      ∀ lower, labels.graph.Reaches id lower → (labels.graph.node lower).kind.isBone = true →
        labels.graph.isRemoved lower = false)
    {fault : Malformed}
    (failed : elementsOf labels id = .error fault) :
    ∃ lower ∈ downToBones labels.graph id, Defect labels lower fault := by
  induction id using linked.childrenFirst with
  | step id ih =>
      rw [downToBones]
      cases stops_of_elementsOf failed with
      | own _ failed =>
          rw [writtenAttributes] at failed
          cases printed : attributesOf labels id with
          | error reason =>
              rw [printed] at failed
              cases failed
              exact ⟨id, List.mem_cons_self, defect_of_attributesAt printed⟩
          | ok attributes =>
              rw [printed] at failed
              cases failed
      | below entered failed =>
          have notBone : (labels.graph.node id).kind.isBone = false := by
            rcases entered with removed | other
            · exact not_bone_of_removed bonesStay removed
            · exact other
          obtain ⟨child, listed, same⟩ := exists_error_of_mapM failed
          have member : child.val ∈ labels.graph.children id := by
            rw [← linked.below_val id]
            exact List.mem_map.mpr ⟨child, listed, rfl⟩
          obtain ⟨lower, below, defect⟩ :=
            ih child.val member
              (fun lower reaches =>
                bonesStay lower ((SceneGraph.Reaches.child member).trans reaches))
              same
          refine ⟨lower, ?_, defect⟩
          rw [notBone, if_neg Bool.false_ne_true]
          exact List.mem_cons_of_mem _ (List.mem_flatMap.mpr ⟨child, listed, below⟩)

end SceneMarkup.Markup

namespace SceneMarkup.Pruning

open Scene Markup

section Runs

variable {labels : Labels} {settled : NodeId → Prop} {state : State} {id : NodeId}
  {fault : Malformed}

/-- A verdict asks a group for its attributes, and maybe its only child. -/
theorem exists_error_of_verdict
    (failed : verdict labels state id = .error fault) :
    ∃ node, (node = id ∨ state.front labels.graph id = [node]) ∧
      pendingAttributes labels state node = .error fault := by
  unfold verdict at failed
  cases printed : pendingAttributes labels state id with
  | error reason =>
      rw [printed] at failed
      cases failed
      exact ⟨id, .inl rfl, printed⟩
  | ok attributes =>
      rw [printed] at failed
      simp only [Except.bind] at failed
      split at failed
      next =>
        cases failed
      next =>
        split at failed
        next =>
          cases failed
        next =>
          split at failed
          next child alone =>
            cases childPrinted : pendingAttributes labels state child.val with
            | error reason =>
                rw [childPrinted] at failed
                cases failed
                exact ⟨child.val, .inr (by rw [State.front, alone]; rfl), childPrinted⟩
            | ok childAttributes =>
                rw [childPrinted] at failed
                cases failed
          next =>
            cases failed

/-- What a verdict at a ready group is stopped by is met without a bone. -/
theorem exists_defect_of_verdict
    (linked : labels.graph.Linked)
    (sound : Sound labels settled state)
    (ready : Ready labels settled state id)
    (eligible : isEligible labels state id = true)
    (failed : verdict labels state id = .error fault) :
    ∃ node, labels.graph.ReachesBoneless SceneGraph.root node ∧ Defect labels node fault := by
  obtain ⟨node, which, asked⟩ := exists_error_of_verdict failed
  have defect : Defect labels node fault := defect_of_attributesAt asked
  refine ⟨node, ?_, defect⟩
  rcases which with rfl | alone
  · exact ready.met
  · have seen : node ∈ state.front labels.graph id := by simp [alone]
    have exposes := ((State.mem_front linked).mp seen).1
    exact ready.met_front linked sound eligible exposes
      (not_bone_of_inexpressible defect.inexpressible)

/-- Looking at a ready node stops only at a node that cannot be written. -/
theorem exists_defect_of_rewrite
    (linked : labels.graph.Linked)
    (sound : Sound labels settled state)
    (ready : Ready labels settled state id)
    (failed : (rewrite labels state id).fault = some fault) :
    ∃ node, labels.graph.ReachesBoneless SceneGraph.root node ∧ Defect labels node fault := by
  induction id using linked.descendantsFirst generalizing settled state with
  | step id ih =>
      cases eligible : isEligible labels state id with
      | false =>
          rw [rewrite, eligible] at failed
          cases failed
      | true =>
          cases reached : verdict labels state id with
          | error reason =>
              rw [rewrite, eligible, reached] at failed
              cases failed
              exact exists_defect_of_verdict linked sound ready eligible reached
          | ok answer =>
              obtain ⟨decision, reports⟩ := answer
              rw [rewrite_of_verdict eligible reached] at failed
              obtain ⟨_, soundHere, readyHere, eligibleHere, again⟩ :=
                after_reports linked sound ready eligible reached
              have justified := verdict_justified again
              cases decision with
              | cancelOuter child =>
                  obtain ⟨alone, cancels, _⟩ := justified
                  have seen :
                      child.val ∈ (reports.foldl State.report state).front labels.graph id := by
                    simp [alone]
                  have exposes := ((State.mem_front linked).mp seen).1
                  obtain ⟨_, after, readyNext, _⟩ :=
                    carryOut_cancelOuter linked soundHere readyHere eligibleHere seen
                      cancels.group
                  exact ih child.val exposes.reaches exposes.differ after readyNext failed
              | fold child =>
                  -- The child that a fold moved is settled, so looking at it again is idle.
                  obtain ⟨alone, folds⟩ := justified
                  obtain ⟨_, after, childSettled⟩ :=
                    carryOut_fold linked soundHere readyHere eligibleHere alone folds
                  obtain ⟨further, kept⟩ :=
                    rewrite_of_steady ((after.node child.val).steady (.inl childSettled))
                  simp [proceed, Verdict.moved?, kept] at failed
              | keep => cases failed
              | empty => cases failed
              | cancelBoth child => cases failed
              | sweep => cases failed

/-- A run that stops has met a node with a defect. -/
theorem exists_defect_of_rewriteAll
    (linked : labels.graph.Linked)
    {before rest : List NodeId}
    (whole : labels.graph.innermostFirst SceneGraph.root = before ++ rest)
    (sound : Sound labels (· ∈ before) state)
    (failed : (rewriteAll labels state rest).fault = some fault) :
    ∃ node, labels.graph.ReachesBoneless SceneGraph.root node ∧ Defect labels node fault := by
  induction rest generalizing before state with
  | nil =>
      cases failed
  | cons id rest ih =>
      have ready := ready_of_split linked state whole
      rw [rewriteAll] at failed
      cases stopped : (rewrite labels state id).fault with
      | some reason =>
          simp only [stopped] at failed
          cases failed
          exact exists_defect_of_rewrite linked sound ready stopped
      | none =>
          simp only [stopped] at failed
          have further :
              labels.graph.innermostFirst SceneGraph.root = (before ++ [id]) ++ rest := by
            rw [whole, List.append_assoc, List.singleton_append]
          exact ih further (sound_next linked sound ready stopped) failed

/-- A run stops only at a node that cannot be written, met from the root without a bone. -/
theorem exists_defect_of_plan
    (linked : labels.graph.Linked)
    (failed : (plan labels).result = .error fault) :
    ∃ node, labels.graph.ReachesBoneless SceneGraph.root node ∧ Defect labels node fault := by
  have sound : Sound labels (· ∈ []) (State.start labels.graph) :=
    (sound_start labels).resettle (fun _ contrary => by cases contrary) fun _ _ => .inl id
  simp only [plan] at failed
  cases stopped : (run labels).fault with
  | some reason =>
      rw [stopped] at failed
      cases failed
      exact exists_defect_of_rewriteAll linked (List.nil_append _).symm sound stopped
  | none =>
      rw [stopped] at failed
      cases failed

end Runs

end SceneMarkup.Pruning

namespace SceneMarkup.Component

open Scene Markup Pruning

/-- A mesh that draws copies of itself, met from the root without a bone, lacks its geometry or its
material. -/
structure Lacking (graph : SceneGraph) (id : NodeId) : Prop where
  met : graph.ReachesBoneless SceneGraph.root id
  copies : (graph.node id).kind.isInstancedMesh = true
  lacks : (graph.node id).geometry = none ∨ (graph.node id).material = none

section Conversions

variable {graph : SceneGraph}

/-- A node that is met and cannot be expressed lacks something. -/
theorem lacking_of_inexpressible
    {id : NodeId}
    (met : graph.ReachesBoneless SceneGraph.root id)
    (inexpressible : isExpressible (graph.node id) = false) :
    Lacking graph id where
  met := met
  copies := (isExpressible_eq_false_iff.mp inexpressible).1
  lacks := (isExpressible_eq_false_iff.mp inexpressible).2

/-- A visible node that is no bone is met without one. -/
theorem met_of_visible
    (linked : graph.Linked)
    {id : NodeId}
    (seen : id ∈ visible graph)
    (notBone : (graph.node id).kind.isBone = false) :
    graph.ReachesBoneless SceneGraph.root id := by
  obtain ⟨reached, free⟩ := (mem_visible linked).mp seen
  refine linked.met_iff.mpr ⟨reached, fun upper reaches => ?_⟩
  by_cases here : upper = id
  · exact here ▸ notBone
  · exact free upper reaches here

/-- What pruning meets is visible. -/
theorem visible_of_met
    (linked : graph.Linked)
    {id : NodeId}
    (met : graph.ReachesBoneless SceneGraph.root id) :
    id ∈ visible graph := by
  obtain ⟨reached, free⟩ := linked.met_iff.mp met
  exact (mem_visible linked).mpr ⟨reached, fun upper reaches _ => free upper reaches⟩

/-- In an intact scene no bone that is reached is removed. -/
theorem Intact.bonesStay
    (intact : Intact graph)
    {id : NodeId}
    (reached : graph.Reaches SceneGraph.root id)
    (bone : (graph.node id).kind.isBone = true) :
    graph.isRemoved id = false := by
  by_cases atRoot : id = SceneGraph.root
  · rw [← Bool.not_eq_true]
    intro removed
    have group := intact.root (atRoot ▸ removed)
    rw [← atRoot] at group
    rw [not_bone_of_group group] at bone
    cases bone
  · exact intact.tidy id reached atRoot

/-- What the emitter is stopped by is lacking. -/
theorem exists_lacking_of_elementsOf
    {labels : Labels}
    (linked : labels.graph.Linked)
    (intact : Intact labels.graph)
    {fault : Malformed}
    (failed : elementsOf labels SceneGraph.root = .error fault) :
    ∃ id, Lacking labels.graph id ∧ fault = .missingSurface (labels.name id) := by
  obtain ⟨id, listed, defect⟩ :=
    exists_defect_of_elementsOf linked (fun _ reached => intact.bonesStay reached) failed
  rw [downToBones_root linked] at listed
  have met := met_of_visible linked listed (not_bone_of_inexpressible defect.inexpressible)
  exact ⟨id, lacking_of_inexpressible met defect.inexpressible, defect.named⟩

/-- A node that lacks something is no group. -/
theorem Lacking.not_group
    {id : NodeId}
    (lacking : Lacking graph id) :
    (graph.node id).kind.isGroup = false := by
  have copies := lacking.copies
  cases kind : (graph.node id).kind <;>
    simp [kind, NodeKind.isInstancedMesh, NodeKind.isGroup] at copies ⊢

/-- If all elements are written then nothing is lacking. -/
theorem not_lacking_of_elementsOf
    {labels : Labels}
    (linked : labels.graph.Linked)
    (intact : Intact labels.graph)
    {elements : List Element}
    (written : elementsOf labels SceneGraph.root = .ok elements)
    (id : NodeId) :
    ¬ Lacking labels.graph id := by
  intro lacking
  have headings := elementsOf_headings linked (fun _ reached => intact.bonesStay reached) written
  rw [downToBones_root linked] at headings
  have present : labels.graph.isRemoved id = false := by
    by_cases atRoot : id = SceneGraph.root
    · rw [← Bool.not_eq_true]
      intro removed
      have group := intact.root (atRoot ▸ removed)
      rw [← atRoot, lacking.not_group] at group
      cases group
    · exact intact.tidy id lacking.met.reaches atRoot
  have shown : id ∈ (visible labels.graph).filter fun node => !labels.graph.isRemoved node :=
    List.mem_filter.mpr ⟨visible_of_met linked lacking.met, by simp [present]⟩
  obtain ⟨heading, own⟩ := exists_of_forall₂ headings.flip shown
  cases heads_of_headingAt own with
  | handle bone =>
      rw [lacking.met.boneless id lacking.met.reaches (SceneGraph.Reaches.refl id)] at bone
      cases bone
  | element _ printed =>
      have inexpressible := isExpressible_eq_false_iff.mpr ⟨lacking.copies, lacking.lacks⟩
      rw [attributesAt_ok_iff.mp ⟨_, printed⟩] at inexpressible
      cases inexpressible

/-- A committed plan removes nothing that is lacking, and nothing becomes lacking. -/
theorem lacking_finalTree
    {labels : Labels}
    {final : State}
    {settled : NodeId → Prop}
    (linked : labels.graph.Linked)
    (intact : Intact labels.graph)
    (sound : Sound labels settled final)
    {id : NodeId} :
    Lacking (finalTree labels final) id ↔ Lacking labels.graph id := by
  have treeLinked : (finalTree labels final).Linked := linked_commit linked _
  have looks := Labels.looks_commit linked (planOf labels.graph final) id
  have kind : ((finalTree labels final).node id).kind = (labels.graph.node id).kind :=
    congrArg (·.kind) looks
  have geometry : ((finalTree labels final).node id).geometry = (labels.graph.node id).geometry :=
    congrArg (·.geometry) looks
  have material : ((finalTree labels final).node id).material = (labels.graph.node id).material :=
    congrArg (·.material) looks
  have shown := visible_finalTree linked intact.tidy sound
  constructor
  · intro lacking
    have seen := visible_of_met treeLinked lacking.met
    have notBone := lacking.met.boneless id lacking.met.reaches (SceneGraph.Reaches.refl id)
    rw [shown, List.mem_filter] at seen
    exact ⟨met_of_visible linked seen.1 (kind ▸ notBone), kind ▸ lacking.copies,
      geometry ▸ material ▸ lacking.lacks⟩
  · intro lacking
    have seen := visible_of_met linked lacking.met
    have notBone := lacking.met.boneless id lacking.met.reaches (SceneGraph.Reaches.refl id)
    have stays : (finalTree labels final).stays id = true := by
      rw [← Bool.not_eq_false]
      intro lost
      have group := isGroup_of_not_stays linked intact.tidy sound lacking.met.reaches lost
      rw [lacking.not_group] at group
      cases group
    have kept : id ∈ visible (finalTree labels final) := by
      rw [shown]
      exact List.mem_filter.mpr ⟨seen, stays⟩
    exact ⟨met_of_visible treeLinked kept (kind.symm ▸ notBone), kind.symm ▸ lacking.copies,
      geometry.symm ▸ material.symm ▸ lacking.lacks⟩

/-- Whatever stops a conversion, while it plans or while it writes, is lacking. -/
theorem exists_lacking_of_convert
    (linked : graph.Linked)
    (intact : Intact graph)
    {fileName : String}
    {options : Options}
    {fault : Malformed}
    (failed : (convert fileName graph options).result = .error fault) :
    ∃ id, Lacking graph id ∧
      fault = .missingSurface
        ((Labels.ofGraph graph (InstanceIndex.analyze graph options) options).name id) := by
  have left := intact.convert linked fileName options
  have labelsLinked :
      (Labels.ofGraph graph (InstanceIndex.analyze graph options) options).graph.Linked :=
    linked
  unfold convert at failed left
  simp only at failed left
  cases found :
      (plan (Labels.ofGraph graph (InstanceIndex.analyze graph options) options)).result with
  | error reason =>
      rw [found] at failed
      cases failed
      obtain ⟨id, met, defect⟩ := exists_defect_of_plan labelsLinked found
      exact ⟨id, lacking_of_inexpressible met defect.inexpressible, defect.named⟩
  | ok decided =>
      rw [found] at failed left
      simp only [moduleText, emit] at failed left
      cases written :
          elementsOf
            (Labels.ofGraph (commit graph decided) (InstanceIndex.analyze graph options) options)
            SceneGraph.root with
      | ok elements =>
          rw [written] at failed
          cases failed
      | error reason =>
          rw [written] at failed
          cases failed
          have treeLinked :
              (Labels.ofGraph (commit graph decided) (InstanceIndex.analyze graph options)
                options).graph.Linked :=
            linked_commit linked decided
          obtain ⟨id, lacking, named⟩ := exists_lacking_of_elementsOf treeLinked left written
          obtain ⟨final, rfl, _, sound⟩ := plan_spec labelsLinked found
          refine ⟨id, (lacking_finalTree linked intact sound).mp lacking, ?_⟩
          rw [named, (Labels.redrawn_commit linked _ _ _ options).names id]

/-- A conversion that succeeds met nothing lacking. -/
theorem not_lacking_of_convert
    (linked : graph.Linked)
    (intact : Intact graph)
    {fileName text : String}
    {options : Options}
    (converted : (convert fileName graph options).result = .ok text)
    (id : NodeId) :
    ¬ Lacking graph id := by
  intro lacking
  have left := intact.convert linked fileName options
  obtain ⟨final, elements, rendered⟩ := exists_rendered linked converted
  refine not_lacking_of_elementsOf (rendered.linked linked) left rendered.written id ?_
  show Lacking (convert fileName graph options).graph id
  rw [rendered.tree]
  exact (lacking_finalTree linked intact rendered.sound).mpr lacking

end Conversions

/--
A conversion fails exactly when a mesh that draws copies of itself, and that the
root reaches without a bone, lacks its geometry or its material; the fault then
names such a mesh.  Planning by itself stops only at a scene that could not be
written as it is, either.
-/
theorem convert_fails_iff
    {fileName : String}
    {graph : SceneGraph}
    {options : Options}
    (linked : graph.Linked)
    (intact : Intact graph) :
    let labels := Labels.ofGraph graph (InstanceIndex.analyze graph options) options
    let lacking := fun id =>
      graph.Reaches SceneGraph.root id ∧
        (∀ upper, graph.Reaches upper id → (graph.node upper).kind.isBone = false) ∧
        (graph.node id).kind.isInstancedMesh = true ∧
        ((graph.node id).geometry = none ∨ (graph.node id).material = none)
    ((∃ fault, (convert fileName graph options).result = .error fault) ↔ ∃ id, lacking id) ∧
      (∀ fault, (convert fileName graph options).result = .error fault →
        ∃ id, lacking id ∧ fault = .missingSurface (labels.name id)) ∧
      (∀ depth markup, emit labels SceneGraph.root depth = .ok markup →
        ∃ decided, (plan labels).result = .ok decided) := by
  intro labels lacking
  have lacking_iff : ∀ id, lacking id ↔ Lacking graph id := by
    intro id
    constructor
    · rintro ⟨reached, free, copies, lacks⟩
      exact ⟨⟨reached, fun upper _ toId => free upper toId⟩, copies, lacks⟩
    · rintro ⟨met, copies, lacks⟩
      exact ⟨met.reaches, fun upper toId =>
        met.boneless upper (linked.reached_above met.reaches toId) toId, copies, lacks⟩
  simp only [lacking_iff]
  refine ⟨⟨?_, ?_⟩, ?_, ?_⟩
  · rintro ⟨fault, failed⟩
    obtain ⟨id, found, _⟩ := exists_lacking_of_convert linked intact failed
    exact ⟨id, found⟩
  · rintro ⟨id, found⟩
    cases outcome : (convert fileName graph options).result with
    | error fault => exact ⟨fault, rfl⟩
    | ok text => exact absurd found (not_lacking_of_convert linked intact outcome id)
  · intro fault failed
    exact exists_lacking_of_convert linked intact failed
  · intro depth markup written
    cases outcome : (plan labels).result with
    | ok decided => exact ⟨decided, rfl⟩
    | error fault =>
        have labelsLinked : labels.graph.Linked := linked
        obtain ⟨id, met, defect⟩ := exists_defect_of_plan labelsLinked outcome
        rw [emit] at written
        cases elements : elementsOf labels SceneGraph.root with
        | error reason =>
            rw [elements] at written
            cases written
        | ok listed =>
            exact absurd (lacking_of_inexpressible met defect.inexpressible)
              (not_lacking_of_elementsOf labelsLinked intact elements id)

/-- A turned group around another one, whose only child draws copies of nothing. -/
def meadow : SceneGraph :=
  (((SceneGraph.ofRoot "Scene").add 0
      { name := "Turn", transform := { Transform.identity with rotation := ⟨1.5, 0.0, 0.0⟩ } }).add 1
      { name := "Wrapper" }).add 2
      { name := "Grass", kind := .instancedMesh 100, geometry := some 0 }

theorem linked_meadow : meadow.Linked ∧ meadow.Untouched :=
  ⟨(((SceneGraph.linked_ofRoot "Scene").add (by decide) _).add (by decide) _).add (by decide) _,
    SceneGraph.untouched_of_not_mem (by decide)⟩

/-- The grass has no material, so the meadow cannot be converted. -/
theorem convert_fails_iff_meadow :
    meadow.Linked ∧ Intact meadow ∧
      ∃ fault, (convert "meadow.glb" meadow { aggressive := true }).result = .error fault := by
  obtain ⟨linked, untouched⟩ := linked_meadow
  have intact := intact_of_untouched untouched
  refine ⟨linked, intact, (convert_fails_iff linked intact).1.mpr ⟨3, ?_, ?_, ?_, ?_⟩⟩
  · exact linked.mem_traverse.mp (by decide +kernel)
  · intro upper reaches
    have above : upper = 0 ∨ upper = 1 ∨ upper = 2 ∨ upper = 3 := by
      have le := linked.le_of_reaches reaches
      have range : ∀ n ≤ 3, n = 0 ∨ n = 1 ∨ n = 2 ∨ n = 3 := by decide
      exact range upper le
    rcases above with rfl | rfl | rfl | rfl <;> decide +kernel
  · decide +kernel
  · decide +kernel

end SceneMarkup.Component
