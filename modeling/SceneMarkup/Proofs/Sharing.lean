import SceneMarkup.Proofs.Building
import SceneMarkup.Proofs.Written

namespace SceneMarkup.Scene

open Component Markup Pruning

/-!
# The index and the labels outlive pruning

Shared pairs are counted outside of bones, in the order of the traversal.  A plan
takes groups away and leaves everything else in its order, and groups are never
counted.  So the index of the pruned scene is that of the scene as loaded, and so
is whatever the labels say about a node.
-/

section Scan

variable {graph : SceneGraph}

/-- What the scan for pairs visits is what is visible and no bone itself. -/
theorem outsideBones_eq_filter
    (linked : graph.Linked)
    (id : NodeId) :
    graph.outsideBones id =
      (downToBones graph id).filter fun node => !(graph.node node).kind.isBone := by
  induction id using linked.childrenFirst with
  | step id ih =>
      rw [SceneGraph.outsideBones, downToBones, linked.below_flatMap, linked.below_flatMap]
      cases bone : (graph.node id).kind.isBone with
      | true => simp [bone]
      | false =>
          rw [if_neg Bool.false_ne_true, if_neg Bool.false_ne_true,
            List.filter_cons_of_pos (by simp [bone]), List.filter_flatMap]
          exact congrArg (List.cons id) (List.flatMap_congr ih)

/-- The nodes outside of bones are the visible ones that are no bones. -/
theorem outsideBones_root
    (linked : graph.Linked) :
    graph.outsideBones SceneGraph.root =
      (visible graph).filter fun node => !(graph.node node).kind.isBone := by
  rw [outsideBones_eq_filter linked, downToBones_root linked]

/-- Nodes outside of bones are reached from the root. -/
theorem reached_of_outsideBones
    (linked : graph.Linked)
    {id : NodeId}
    (listed : id ∈ graph.outsideBones SceneGraph.root) :
    graph.Reaches SceneGraph.root id := by
  rw [outsideBones_root linked] at listed
  have seen := (List.mem_filter.mp listed).1
  exact linked.mem_traverse.mp (List.mem_filter.mp seen).1

/-- A group is not recorded. -/
theorem recordNode_of_group
    {node : Node}
    (group : node.kind.isGroup = true)
    (index : InstanceIndex) :
    index.recordNode node = index := by
  unfold InstanceIndex.recordNode
  cases kind : node.kind <;> simp_all [NodeKind.isGroup, NodeKind.isPlainMesh]

/-- Nodes that look alike are recorded alike. -/
theorem recordNode_of_looks
    {first second : Node}
    (looks : first.looks = second.looks)
    (index : InstanceIndex) :
    index.recordNode first = index.recordNode second := by
  have same := congrArg index.recordNode looks
  exact same

end Scan

section Pruned

variable {labels : Labels} {final : State} {settled : NodeId → Prop}

/-- After a commit, the scan visits what it visited before and what keeps its place. -/
theorem outsideBones_finalTree
    (linked : labels.graph.Linked)
    (tidy : Tidy labels.graph)
    (sound : Sound labels settled final) :
    (finalTree labels final).outsideBones SceneGraph.root =
      (labels.graph.outsideBones SceneGraph.root).filter (finalTree labels final).stays := by
  have treeLinked : (finalTree labels final).Linked := linked_commit linked _
  rw [outsideBones_root treeLinked, outsideBones_root linked, visible_finalTree linked tidy sound,
    List.filter_filter, List.filter_filter]
  refine List.filter_congr fun id _ => ?_
  rw [kind_finalTree linked, Bool.and_comm]

/-- Pruning leaves the index as it is. -/
theorem analyze_finalTree
    (linked : labels.graph.Linked)
    (tidy : Tidy labels.graph)
    (sound : Sound labels settled final)
    (options : Options) :
    InstanceIndex.analyze (finalTree labels final) options =
      InstanceIndex.analyze labels.graph options := by
  have found :
      ((finalTree labels final).outsideBones SceneGraph.root).foldl
          (fun (index : InstanceIndex) id => index.recordNode ((finalTree labels final).node id))
          {} =
        (labels.graph.outsideBones SceneGraph.root).foldl
          (fun (index : InstanceIndex) id => index.recordNode (labels.graph.node id)) {} := by
    -- A node that the scan does not meet again is a group, and groups are not counted.
    rw [outsideBones_finalTree linked tidy sound, List.foldl_filter]
    refine List.foldl_ext _ _ _ fun index id listed => ?_
    have looks := Labels.looks_commit linked (planOf labels.graph final) id
    cases stays : (finalTree labels final).stays id with
    | true => exact recordNode_of_looks looks index
    | false =>
        have reached := reached_of_outsideBones linked listed
        have group := isGroup_of_not_stays linked tidy sound reached stays
        exact (recordNode_of_group group index).symm
  rw [InstanceIndex.analyze, InstanceIndex.analyze, found]

end Pruned

/--
The index and the labels outlive pruning: the pairs found in the pruned scene are
those found in the scene as loaded, in the same order, and labels of the pruned
scene, read with either index, give every node the same name, tag, expression,
instance and say alike whether a clip or morph targets need it.
-/
theorem analyze_commit
    {graph : SceneGraph}
    {index : InstanceIndex}
    {options : Options}
    {decided : Plan}
    (linked : graph.Linked)
    (tidy : Tidy graph)
    (found : (plan (Labels.ofGraph graph index options)).result = .ok decided) :
    let before := Labels.ofGraph graph (InstanceIndex.analyze graph options) options
    let pruned := commit graph decided
    let after := Labels.ofGraph pruned (InstanceIndex.analyze pruned options) options
    InstanceIndex.analyze pruned options = InstanceIndex.analyze graph options ∧
      after.animated = before.animated ∧
      ∀ id,
        after.name id = before.name id ∧
          tagOf (after.graph.node id).kind = tagOf (before.graph.node id).kind ∧
          after.nodeExpression id = before.nodeExpression id ∧
          after.sharedPair? id = before.sharedPair? id ∧
          after.isRelevant id = before.isRelevant id := by
  intro before pruned after
  have labelsLinked : (Labels.ofGraph graph index options).graph.Linked := linked
  obtain ⟨final, rfl, _, sound⟩ := plan_spec labelsLinked found
  have same : InstanceIndex.analyze pruned options = InstanceIndex.analyze graph options :=
    analyze_finalTree labelsLinked tidy sound options
  have redrawn : Labels.Redrawn before after :=
    Labels.redrawn_commit linked (planOf graph final) _ _ options
  have clips : pruned.clips = graph.clips :=
    congrArg (·.clips) (commit_eq graph (planOf graph final))
  refine ⟨same, ?_, fun id => ⟨redrawn.names id, ?_, redrawn.nodeExpression id,
    redrawn.sharedPair?_of_index same id, redrawn.isRelevant id⟩⟩
  · show (!pruned.clips.isEmpty) = !graph.clips.isEmpty
    rw [clips]
  · rw [redrawn.kind]

/-- Two boxes that share a pair, one of them in a wrapper, and a third one below a bone. -/
def twinScene : SceneGraph :=
  { (((((SceneGraph.ofRoot "Scene").add 0 { name := "Wrapper" }).add 1
      { name := "Box", kind := .mesh, geometry := some 0, material := some 0 }).add 0
      { name := "Twin", kind := .mesh, geometry := some 0, material := some 0 }).add 0
      { name := "Hip", kind := .bone }).add 4
      { name := "Third", kind := .mesh, geometry := some 0, material := some 0 } with
    geometries := #[{}]
    materials := #[{ name := "Paint" }] }

theorem built_twinScene : Built twinScene :=
  ((((((Built.ofRoot "Scene").add (by decide) _).add (by decide) _).add (by decide) _).add
    (by decide) _).add (by decide) _).edit ⟨rfl, rfl, fun _ => rfl, fun _ => rfl⟩ fun _ => rfl

/-- The wrapper goes, and the boxes outside of bones are still counted as two. -/
theorem analyze_commit_twinScene :
    let options : Options := { instanceShared := true }
    let decided : Plan := ⟨[(1, .empty), (0, .empty)], []⟩
    (plan (Labels.ofGraph twinScene {} options)).result = .ok decided ∧
      InstanceIndex.analyze (commit twinScene decided) options =
        .ofPairs [⟨0, 0, 2, "Box", "nodes.Box"⟩] := by
  intro options decided
  have found : (plan (Labels.ofGraph twinScene {} options)).result = .ok decided := by
    decide +kernel
  have counted : InstanceIndex.analyze twinScene options =
      .ofPairs [⟨0, 0, 2, "Box", "nodes.Box"⟩] := by
    decide +kernel
  have same := (analyze_commit built_twinScene.linked built_twinScene.tidy found).1
  exact ⟨found, same.trans counted⟩

end SceneMarkup.Scene
