import SceneMarkup.Proofs.DrivenNames
import SceneMarkup.Proofs.FirstMeshes

namespace SceneMarkup.Scene

open Markup

/-!
# Entries reach their first meshes by name

An entry of the index is written before any name is made up, with the name that
its first mesh has in the scene.  The labels reach the mesh by the same name,
unless it has none and a clip drives it: then a name is made up for the mesh, and
the entry does not know it.
-/

/-- What an expression takes from the nodes tells the name that it was made for. -/
theorem nodeExpression_injective :
    Function.Injective nodeExpression := by
  intro first second same
  have keys := congrArg (accesses "nodes") same
  simp only [nodeExpression, accesses_memberAccess isWord_nodes, if_true] at keys
  exact List.singleton_inj.mp keys

/-- The labels rename exactly the nodes that have no name and are driven by a clip. -/
theorem Labels.name_ofGraph_iff
    {graph : SceneGraph}
    {id : NodeId}
    (inside : id < graph.size)
    (index : InstanceIndex)
    (options : Options) :
    (ofGraph graph index options).name id = (graph.node id).name ↔
      (graph.node id).name ≠ "" ∨ id ∉ graph.targets := by
  refine ⟨fun same => ?_, fun kept => name_ofGraph kept index options⟩
  by_contra renamed
  rw [not_or, not_not, not_not] at renamed
  obtain ⟨unnamed, driven⟩ := renamed
  have made := mem_madeUp (mem_unnamedTargets.mpr ⟨inside, driven, unnamed⟩) index options
  exact ne_empty_of_makeUpNames made (same.trans unnamed)

/--
Every entry of the index stands for meshes, and it reaches the first of them by
the name that this mesh has in the scene.  The labels reach the mesh in the same
way exactly if it has a name or no clip drives it.
-/
theorem entries_reach_first_meshes
    {graph : SceneGraph}
    (linked : graph.Linked)
    (options : Options) :
    let index := InstanceIndex.analyze graph options
    let labels := Labels.ofGraph graph index options
    ∀ pair ∈ index.pairs, ∃ mesh,
      (drawers graph pair.geometry pair.material).head? = some mesh ∧
        pair.node = nodeExpression (graph.node mesh).name ∧
        (pair.node = labels.nodeExpression mesh ↔
          (graph.node mesh).name ≠ "" ∨ mesh ∉ graph.targets) := by
  intro index labels pair listed
  obtain ⟨mesh, first, reaches⟩ := (firstCome_analyze graph options).reached pair listed
  have member := List.mem_of_find?_eq_some first
  have inside := linked.inside_of_reached (reached_of_outsideBones linked member)
  refine ⟨mesh, (head?_drawers linked pair).trans first, reaches, ?_⟩
  rw [reaches, Labels.nodeExpression, nodeExpression_injective.eq_iff, eq_comm]
  exact Labels.name_ofGraph_iff inside index options

/-- A rock with a name is reached as the labels reach it, although a clip drives it. -/
theorem entries_reach_first_meshes_quarryScene :
    let options : Options := { instanceAll := true }
    let index := InstanceIndex.analyze quarryScene options
    let rock : SharedPair := ⟨2, 0, 1, "Rock1", "nodes['Rock.001']"⟩
    quarryScene.Linked ∧
      rock ∈ index.pairs ∧
      (drawers quarryScene 2 0).head? = some 6 ∧
      6 ∈ quarryScene.targets ∧
      rock.node = (Labels.ofGraph quarryScene index options).nodeExpression 6 := by
  intro options index rock
  have linked := built_quarryScene.linked
  have listed : rock ∈ index.pairs := by decide +kernel
  have here : (drawers quarryScene 2 0).head? = some 6 := by decide +kernel
  obtain ⟨mesh, first, _, agrees⟩ := entries_reach_first_meshes linked options rock listed
  obtain rfl : 6 = mesh := Option.some.inj (here.symm.trans first)
  exact ⟨linked, listed, here, by decide +kernel, agrees.mpr (.inl (by decide +kernel))⟩

/-- The entry of the driven mesh without a name looks for a node that is called by nothing. -/
theorem entry_misses_renamed_mesh :
    let options : Options := { instanceAll := true }
    let index := InstanceIndex.analyze quarryScene options
    let part : SharedPair := ⟨0, 0, 1, "Part", "nodes['']"⟩
    part ∈ index.pairs ∧
      (drawers quarryScene 0 0).head? = some 3 ∧
      (Labels.ofGraph quarryScene index options).nodeExpression 3 = "nodes.Mesh_3" := by
  decide +kernel

end SceneMarkup.Scene
