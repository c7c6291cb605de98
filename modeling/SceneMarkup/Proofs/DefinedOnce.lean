import SceneMarkup.Proofs.Layout

namespace SceneMarkup.Component

open Scene Markup Pruning

/-!
# What is used is defined once

The body and the layout are read from the text of the module: which elements are
instances and which keys of the tables they take, and on the other side the map of
instances with its wrapper and the keys that the result type declares.
-/

section Layouts

variable {source : Source}

theorem keys_declaredRow
    (entries : List (String × String)) :
    (entries.map declaredRow).map (·.1) = writtenKeys entries := by
  rw [List.map_map]
  rfl

/-- The keys that a typed module declares for nodes. -/
theorem keys_layout_nodes
    (typed : source.options.types = true) :
    source.layout.nodes.map (·.1) = writtenKeys (declaredNodes source.labels) := by
  simp only [Source.layout, if_pos typed, keys_declaredRow]

/-- The keys that a typed module declares for materials. -/
theorem keys_layout_materials
    (typed : source.options.types = true) :
    source.layout.materials.map (·.1) = writtenKeys (declaredMaterials source.labels.graph) := by
  simp only [Source.layout, if_pos typed, keys_declaredRow]

/-- The map holds all entries of the index, if instances are asked for. -/
theorem instances_layout
    (source : Source) :
    source.layout.instances =
      if source.options.instancing then source.labels.index.pairs.map instanceRow else [] := by
  rw [Source.layout, Source.hasInstances, InstanceIndex.isEmpty]
  cases source.options.instancing with
  | false => rfl
  | true =>
      cases source.labels.index.pairs with
      | nil => rfl
      | cons pair rest => rfl

end Layouts

/--
Instance definitions and uses match in the body and the layout that are read from
the module.  An element with the tag of an instance has exactly one entry in the
index and says nothing about its surface; the map of instances holds the entries in
their order, each name once, and every entry is used as often as it counts; a pair
with a single mesh is an instance only if all are asked for; and there is a wrapper
if and only if some element is an instance.
-/
theorem convert_matches_instances
    {fileName : String}
    {graph : SceneGraph}
    {options : Options}
    {text : String}
    (linked : graph.Linked)
    (intact : Intact graph)
    (instancing : options.instancing = true)
    (converted : (convert fileName graph options).result = .ok text) :
    let index := InstanceIndex.analyze graph options
    let pruned := (convert fileName graph options).graph
    let labels := Labels.ofGraph graph index options
    let shown := (visible graph).filter fun id => !pruned.isRemoved id
    ∃ elements layout,
      readBody? text = some elements ∧ readLayout? text = some layout ∧
        List.Forall₂
          (fun id heading => headingAt labels id (pruned.node id).transform = .ok heading)
          shown (headingsOf elements) ∧
        (∀ heading ∈ headingsOf elements, ∀ name, heading.tag = instanceTag name →
          (∃! pair, pair ∈ index.pairs ∧ pair.name = name) ∧
            ∀ item ∈ heading.attributes, item.key ≠ "geometry" ∧ item.key ≠ "material") ∧
        (∀ pair ∈ index.pairs,
          (headingsOf elements).countP (fun heading => heading.tag == instanceTag pair.name) =
              pair.count ∧
            (layout.instances.map (·.1)).count pair.name = 1) ∧
        layout.instances = index.pairs.map instanceRow ∧
        (∀ id ∈ graph.outsideBones SceneGraph.root, ∀ geometry material,
          (graph.node id).draws geometry material = true →
          (graph.outsideBones SceneGraph.root).countP
              (fun other => (graph.node other).draws geometry material) = 1 →
          ∀ name, tagAt (Labels.ofGraph pruned index options) id = instanceTag name →
            options.instanceAll = true) ∧
        (layout.wrapped = true ↔
          ∃ heading ∈ headingsOf elements, ∃ name, heading.tag = instanceTag name) := by
  intro index pruned labels shown
  obtain ⟨final, elements, rendered⟩ := exists_rendered linked converted
  have body : BodyOf graph options (fun id => !pruned.isRemoved id)
      (fun id => (pruned.node id).transform) (headingsOf elements) :=
    rendered.headings linked intact
  have groups :
      ∀ id ∈ visible graph, (!pruned.isRemoved id) = false →
        (graph.node id).kind.isGroup = true :=
    fun id => rendered.group linked intact
  let source := sourceOf fileName graph options elements
  have rows : source.layout.instances = index.pairs.map instanceRow :=
    (instances_layout source).trans (if_pos instancing)
  have keys : source.layout.instances.map (·.1) = index.pairs.map (·.name) := by
    rw [rows, List.map_map]
    rfl
  have names := InstanceIndex.names_analyze graph options
  refine ⟨elements, source.layout, rendered.reads.1, rendered.reads.2, body, ?_, ?_, rows, ?_, ?_⟩
  · exact fun heading listed name tagged => entry_of_instance instancing body listed tagged
  · intro pair listed
    rw [keys]
    exact ⟨count_instances linked instancing body groups listed,
      List.count_eq_one_of_mem names (List.mem_map_of_mem listed)⟩
  · intro id _ geometry material drawn single name tagged
    have redrawn : Labels.Redrawn labels (Labels.ofGraph pruned index options) :=
      rendered.redrawn linked
    have before : tagAt labels id = instanceTag name := by
      rw [← tagged, tagAt, tagAt, redrawn.sharedPair?_of_index rfl, redrawn.kind]
    exact instanceAll_of_single instancing drawn single before
  · exact hasInstances_iff linked body groups

/-- The boxes that share a pair are drawn through one instance, and the wrapper defines it. -/
theorem convert_matches_instances_twinScene :
    let options : Options := { instanceShared := true }
    ∃ text elements layout,
      (convert "twin.glb" twinScene options).result = .ok text ∧
        readBody? text = some elements ∧ readLayout? text = some layout ∧
        (headingsOf elements).countP (fun heading => heading.tag == "instances.Box") = 2 ∧
        layout.instances = [("Box", "nodes.Box,")] ∧ layout.wrapped = true := by
  intro options
  have intact : Intact twinScene :=
    ⟨built_twinScene.tidy, fun removed => absurd removed (by decide)⟩
  have succeeds : (convert "twin.glb" twinScene options).result.isOk = true := by
    decide +kernel
  obtain ⟨text, converted⟩ := exists_eq_ok succeeds
  obtain ⟨elements, layout, reads, laidOut, _, _, entries, rows, _, wrapped⟩ :=
    convert_matches_instances built_twinScene.linked intact rfl converted
  have listed :
      (InstanceIndex.analyze twinScene options).pairs = [⟨0, 0, 2, "Box", "nodes.Box"⟩] := by
    decide +kernel
  rw [listed] at entries rows
  have twice := (entries _ (List.mem_singleton.mpr rfl)).1
  have positive :
      0 < (headingsOf elements).countP fun heading => heading.tag == instanceTag "Box" := by
    rw [twice]
    decide
  obtain ⟨heading, written, tagged⟩ := List.countP_pos_iff.mp positive
  exact ⟨text, elements, layout, converted, reads, laidOut, twice, rows,
    wrapped.mpr ⟨heading, written, "Box", eq_of_beq tagged⟩⟩

/--
A typed module declares what it uses, in the layout that is read from it.  Every
element of its body takes from the materials only keys that are declared exactly
once, and from the nodes too, unless its node is neither a mesh nor a bone and
carries a geometry, shapes or an unnamed material.  The map of instances holds the
entries of the index, and every entry reaches a mesh that draws its pair; the key is
declared exactly once, unless the mesh has no name and a clip drives it.
-/
theorem convert_declares_accesses
    {fileName : String}
    {graph : SceneGraph}
    {options : Options}
    {text : String}
    (linked : graph.Linked)
    (intact : Intact graph)
    (typed : options.types = true)
    (converted : (convert fileName graph options).result = .ok text) :
    let index := InstanceIndex.analyze graph options
    let labels := Labels.ofGraph graph index options
    let pruned := (convert fileName graph options).graph
    let shown := (visible graph).filter fun id => !pruned.isRemoved id
    ∃ elements layout,
      text =
          Source.text
            ⟨Labels.ofGraph pruned index options, fileName, elementsText bodyDepth elements⟩ ∧
        readBody? text = some elements ∧ readLayout? text = some layout ∧
        layout.instances = (if options.instancing then index.pairs.map instanceRow else []) ∧
        List.Forall₂
          (fun id heading =>
            headingAt labels id (pruned.node id).transform = .ok heading ∧
              ∀ item ∈ heading.attributes, ∀ content, item.value = .expression content →
                Declares (layout.nodes.map (·.1)) (layout.materials.map (·.1))
                  (Declarable graph id) content)
          shown (headingsOf elements) ∧
        ∀ pair ∈ index.pairs, ∃ id ∈ graph.outsideBones SceneGraph.root,
          (graph.node id).draws pair.geometry pair.material = true ∧
            pair.node = nodeExpression (graph.node id).name ∧
            Declares (layout.nodes.map (·.1)) (layout.materials.map (·.1))
              ((graph.node id).name ≠ "" ∨ id ∉ graph.targets) pair.node := by
  intro index labels pruned shown
  obtain ⟨final, elements, rendered⟩ := exists_rendered linked converted
  have redrawn := rendered.redrawn linked
  let source := sourceOf fileName graph options elements
  have nodes : source.layout.nodes.map (·.1) = writtenKeys (declaredNodes source.labels) :=
    keys_layout_nodes typed
  have materials :
      source.layout.materials.map (·.1) = writtenKeys (declaredMaterials source.labels.graph) :=
    keys_layout_materials typed
  refine ⟨elements, source.layout, rendered.text, rendered.reads.1, rendered.reads.2,
    instances_layout source, ?_, ?_⟩
  · have listed :=
      (List.forall₂_and_left _ _).mpr
        ⟨fun id member => List.mem_filter.mp member, rendered.headings linked intact⟩
    refine listed.imp ?_
    rintro id heading ⟨⟨seen, present⟩, own⟩
    refine ⟨own, fun item member content value => ?_⟩
    -- Declarations are read off the pruned scene, where all that is written is still visible.
    have still : id ∈ visible pruned :=
      rendered.still_visible linked intact seen ((Bool.not_eq_true' _).mp present)
    rw [nodes, materials]
    exact declares_of_takesOwn redrawn (rendered.linked linked) still
      (takesOwn_of_headingAt own member value)
  · intro pair listed
    obtain ⟨_, seen, drawn, reached⟩ :=
      (InstanceIndex.tallied_found graph).reached pair (InstanceIndex.mem_analyze.mp listed).1
    obtain ⟨id, member, rfl⟩ := List.mem_map.mp seen
    refine ⟨id, member, drawn, reached, ?_⟩
    have mesh := kind_of_isPlainMesh (Node.draws_iff.mp drawn).1
    rw [nodes, materials, reached, Scene.nodeExpression]
    constructor <;> rw [accesses_memberAccess isWord_nodes]
    · exact fun _ taken => by cases taken
    · intro called key taken
      obtain rfl := List.mem_singleton.mp taken
      rw [← Labels.name_ofGraph called index options]
      exact rendered.declaredOnce_mesh linked intact member mesh

/-- Two stones of one kind, a floor with an unnamed material, a hip and a line. -/
def yardScene : SceneGraph :=
  { (((((SceneGraph.ofRoot "Scene").add 0
      { name := "Stone", kind := .mesh, geometry := some 0, material := some 0 }).add 0
      { name := "Stone.001", kind := .mesh, geometry := some 0, material := some 0 }).add 0
      { name := "Floor", kind := .mesh, geometry := some 1, material := some 1 }).add 0
      { name := "Hip", kind := .bone }).add 0
      { name := "Fence", kind := .line .strip, geometry := some 1, material := some 0 } with
    geometries := #[{}, {}]
    materials := #[{ name := "Slate" }, {}] }

theorem built_yardScene : Built yardScene :=
  ((((((Built.ofRoot "Scene").add (by decide) _).add (by decide) _).add (by decide) _).add
    (by decide) _).add (by decide) _).edit ⟨rfl, rfl, fun _ => rfl, fun _ => rfl⟩ fun _ => rfl

/-- Of the yard everything is declared but what the fence takes through itself. -/
theorem convert_declares_accesses_yardScene :
    let options : Options := { types := true, instanceShared := true }
    ∃ text elements layout,
      (convert "yard.glb" yardScene options).result = .ok text ∧
        readBody? text = some elements ∧ readLayout? text = some layout ∧
        layout.instances = [("Stone", "nodes.Stone,")] ∧
        List.Forall₂
          (fun id heading =>
            ∀ item ∈ heading.attributes, ∀ content, item.value = .expression content →
              Declares (layout.nodes.map (·.1)) (layout.materials.map (·.1)) (id ≠ 5) content)
          [1, 2, 3, 4, 5] (headingsOf elements) ∧
        Declares (layout.nodes.map (·.1)) (layout.materials.map (·.1)) True "nodes.Stone" := by
  intro options
  have intact : Intact yardScene :=
    ⟨built_yardScene.tidy, fun removed => absurd removed (by decide)⟩
  have succeeds : (convert "yard.glb" yardScene options).result.isOk = true := by
    decide +kernel
  obtain ⟨text, converted⟩ := exists_eq_ok succeeds
  obtain ⟨elements, layout, _, reads, laidOut, rows, body, entries⟩ :=
    convert_declares_accesses built_yardScene.linked intact rfl converted
  have shown :
      ((visible yardScene).filter fun id =>
        !(convert "yard.glb" yardScene options).graph.isRemoved id) = [1, 2, 3, 4, 5] := by
    decide +kernel
  have declarable : ∀ id ∈ [1, 2, 3, 4, 5], id ≠ 5 → Declarable yardScene id := by
    decide +kernel
  have listed :
      (InstanceIndex.analyze yardScene options).pairs = [⟨0, 0, 2, "Stone", "nodes.Stone"⟩] := by
    decide +kernel
  rw [shown] at body
  rw [listed] at rows entries
  have known := (List.forall₂_and_left _ _).mpr ⟨declarable, body⟩
  refine ⟨text, elements, layout, converted, reads, laidOut, rows, ?_, ?_⟩
  · refine known.imp ?_
    rintro id heading ⟨allowed, _, declares⟩ item member content value
    obtain ⟨materials, nodes⟩ := declares item member content value
    exact ⟨materials, fun other => nodes (allowed other)⟩
  · have named :
        ∀ id ∈ yardScene.outsideBones SceneGraph.root, (yardScene.node id).name ≠ "" := by
      decide +kernel
    obtain ⟨id, outside, _, _, materials, nodes⟩ := entries _ (List.mem_singleton.mpr rfl)
    exact ⟨materials, fun _ => nodes (.inl (named id outside))⟩

/-- The fence has its geometry through itself, and it is not declared. -/
theorem undeclared_line :
    let options : Options := { types := true }
    ∃ text elements layout,
      (convert "yard.glb" yardScene options).result = .ok text ∧
        readBody? text = some elements ∧ readLayout? text = some layout ∧
        (⟨"line", [⟨"geometry", .expression "nodes.Fence.geometry"⟩,
            ⟨"material", .expression "materials.Slate"⟩]⟩ : Heading) ∈ headingsOf elements ∧
          accesses "nodes" "nodes.Fence.geometry" = ["Fence"] ∧
            ¬ DeclaredOnce (layout.nodes.map (·.1)) "Fence" := by
  intro options
  have succeeds : (convert "yard.glb" yardScene options).result.isOk = true := by
    decide +kernel
  obtain ⟨text, converted⟩ := exists_eq_ok succeeds
  obtain ⟨elements, written, reads, laidOut⟩ := convert_reads converted
  let labels :=
    Labels.ofGraph (convert "yard.glb" yardScene options).graph
      (InstanceIndex.analyze yardScene options) options
  have line :
      ((elementsOf labels SceneGraph.root).map fun elements =>
        (headingsOf elements).contains
          ⟨"line", [⟨"geometry", .expression "nodes.Fence.geometry"⟩,
            ⟨"material", .expression "materials.Slate"⟩]⟩) = .ok true := by
    decide +kernel
  have declared :
      declaredNodes labels =
        [("Stone", "Mesh"), ("Stone.001", "Mesh"), ("Floor", "Mesh"), ("Hip", "Bone")] := by
    decide +kernel
  rw [written] at line
  refine ⟨text, elements, _, converted, reads, laidOut, ?_, by decide +kernel, ?_⟩
  · exact List.contains_iff_mem.mp (Except.ok.inj line)
  · rw [keys_layout_nodes rfl, declared]
    decide +kernel

/-- A mesh without a name that a clip drives, and another one of the same kind. -/
def drivenScene : SceneGraph :=
  { (((SceneGraph.ofRoot "Scene").add 0
      { kind := .mesh, geometry := some 0, material := some 0 }).add 0
      { name := "Copy", kind := .mesh, geometry := some 0, material := some 0 }) with
    geometries := #[{}]
    materials := #[{ name := "Slate" }]
    clips := [{ name := "Turn", targets := [1] }] }

/-- The entry reaches the driven mesh by the name that it lacks, not by the one made up for it. -/
theorem undeclared_entry :
    let options : Options := { types := true, instanceShared := true }
    ∃ text layout,
      (convert "driven.glb" drivenScene options).result = .ok text ∧
        readLayout? text = some layout ∧
        layout.instances = [("Part", "nodes[''],")] ∧
          layout.nodes = [("Mesh_1", "THREE.Mesh"), ("Copy", "THREE.Mesh")] ∧
            accesses "nodes" "nodes['']" = [""] ∧
              ¬ DeclaredOnce (layout.nodes.map (·.1)) "" := by
  intro options
  have succeeds : (convert "driven.glb" drivenScene options).result.isOk = true := by
    decide +kernel
  obtain ⟨text, converted⟩ := exists_eq_ok succeeds
  obtain ⟨elements, _, _, laidOut⟩ := convert_reads converted
  let labels :=
    Labels.ofGraph (convert "driven.glb" drivenScene options).graph
      (InstanceIndex.analyze drivenScene options) options
  have entries : labels.index.pairs.map instanceRow = [("Part", "nodes[''],")] := by
    decide +kernel
  have declared :
      (declaredNodes labels).map declaredRow =
        [("Mesh_1", "THREE.Mesh"), ("Copy", "THREE.Mesh")] := by
    decide +kernel
  have rows : (Source.layout ⟨labels, "driven.glb", elementsText bodyDepth elements⟩).nodes = _ :=
    declared
  refine ⟨text, _, converted, laidOut, (instances_layout _).trans entries, rows,
    by decide +kernel, ?_⟩
  rw [rows]
  decide +kernel

end SceneMarkup.Component
