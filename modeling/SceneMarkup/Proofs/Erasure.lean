import SceneMarkup.Proofs.MergedMaterials

namespace SceneMarkup.Scene

/-- The graph with its tables as they are when no content is looked at. -/
def SceneGraph.withoutFingerprints (graph : SceneGraph) : SceneGraph :=
  { graph with
    geometries := graph.geometries.map fun geometry => { geometry with fingerprint := none }
    materials := graph.materials.map fun material => { material with fingerprint := none } }

/-- Everything in the tables of a graph has its fingerprint. -/
def SceneGraph.Fingerprinted (graph : SceneGraph) : Prop :=
  (∀ geometry ∈ graph.geometries, geometry.fingerprint.isSome = true) ∧
    ∀ material ∈ graph.materials, material.fingerprint.isSome = true

instance (graph : SceneGraph) : Decidable graph.Fingerprinted :=
  inferInstanceAs (Decidable (_ ∧ _))

end SceneMarkup.Scene

namespace SceneMarkup.Loading

open Files (FileTree Path)
open Scene (SceneGraph Geometry)

/-!
# Looking at the content does not change a scene

A scene is constructed with and without the contents of its buffers.  Keys decide
what shares a geometry or a material, and no key depends on a fingerprint.  So
after every step of the construction the two registries are the same but for the
fingerprints, and the step has given the same.
-/

section Registries

/-- The source without the bytes of its buffers. -/
def Source.withoutContents (source : Source) : Source :=
  { source with contents := none }

/-- The registry with its tables as they are when no content is looked at. -/
def Registry.withoutFingerprints (registry : Registry) : Registry :=
  { registry with
    geometries := registry.geometries.map (Prod.map id fun _ => { fingerprint := none })
    materials :=
      registry.materials.map (Prod.map id fun material => { material with fingerprint := none }) }

variable {κ α β : Type} [DecidableEq κ]

/-- Whether a key is entered does not depend on the values. -/
theorem Registry.enter_map
    (change : α → β)
    (table : List (κ × α))
    (key : κ)
    (value : α) :
    Registry.enter (table.map (Prod.map id change)) key (change value) =
      (Registry.enter table key value).map (Prod.map id change) := by
  have same : (table.map (Prod.map id change)).any (·.1 = key) = table.any (·.1 = key) :=
    List.any_map
  rw [Registry.enter, Registry.enter, same]
  split
  · rfl
  · rw [List.map_append]
    rfl

/-- A change of the listed values moves no key. -/
theorem Registry.place_map
    (change : α → β)
    (table : List (κ × α))
    (key : κ) :
    Registry.place (table.map (Prod.map id change)) key = Registry.place table key :=
  List.findIdx_map _ _ _

end Registries

section Steps

/-- Without fingerprints the second step gives what the first one gives with them. -/
def Erases (full bare : Building α) : Prop :=
  ∀ registry,
    bare.run registry.withoutFingerprints =
      ((full.run registry).1, (full.run registry).2.withoutFingerprints)

theorem erases_pure (value : α) : Erases (pure value) (pure value) :=
  fun _ => rfl

/-- Steps that erase fingerprints one after the other erase them together. -/
theorem erases_bind
    {full bare : Building α}
    {next after : α → Building β}
    (first : Erases full bare)
    (later : ∀ value, Erases (next value) (after value)) :
    Erases (full >>= next) (bare >>= after) := by
  intro registry
  have run : (bare >>= after).run registry.withoutFingerprints =
      (after (bare.run registry.withoutFingerprints).1).run
        (bare.run registry.withoutFingerprints).2 :=
    rfl
  rw [run, first registry]
  exact later _ _

/-- A row of steps erases fingerprints if each step does. -/
theorem erases_mapM
    {step bare : α → Building β}
    (each : ∀ item, Erases (step item) (bare item))
    (items : List α) :
    Erases (items.mapM step) (items.mapM bare) := by
  induction items with
  | nil => exact erases_pure []
  | cons item rest ih =>
      rw [List.mapM_cons, List.mapM_cons]
      refine erases_bind (each item) fun value => ?_
      exact erases_bind ih fun values => erases_pure (value :: values)

/-- Names are given without a look at fingerprints. -/
theorem erases_claimName (name : String) : Erases (claimName name) (claimName name) :=
  fun _ => rfl

variable (source : Source)

/-- Primitives share a geometry or do not, whatever their content. -/
theorem erases_claimGeometry
    (primitive : Gltf.Primitive) :
    Erases (claimGeometry source primitive)
      (claimGeometry source.withoutContents primitive) := by
  intro registry
  have entered := Registry.enter_map (fun _ : Geometry => ({ fingerprint := none } : Geometry))
    registry.geometries (keyOf primitive) (entryOf source primitive).2
  have placed := Registry.place_map (fun _ : Geometry => ({ fingerprint := none } : Geometry))
    (Registry.enter registry.geometries (keyOf primitive) (entryOf source primitive).2)
    (keyOf primitive)
  rw [← entered] at placed
  have tables :
      ((claimGeometry source.withoutContents primitive).run registry.withoutFingerprints).2 =
        ((claimGeometry source primitive).run registry).2.withoutFingerprints :=
    congrArg (fun table => { registry.withoutFingerprints with geometries := table }) entered
  exact Prod.ext placed tables

/-- A material is entered in the same place with a fingerprint and without. -/
theorem erases_claimMaterial
    (primitive : Gltf.Primitive) :
    Erases (claimMaterial source primitive)
      (claimMaterial source.withoutContents primitive) := by
  intro registry
  let definition :=
    (primitive.material.bind fun index => source.document.materials[index]?).getD .absent
  let kind := materialKind (primitive.mode.getD .triangles) definition
  let change (material : Scene.Material) : Scene.Material := { material with fingerprint := none }
  let key : MaterialKey := ⟨primitive.material, kind⟩
  let shared : Scene.Material :=
    ⟨definition.name.getD "", kind,
      source.contents.map fun _ => materialFingerprint definition kind⟩
  have entered := Registry.enter_map change registry.materials key shared
  have placed := Registry.place_map change (Registry.enter registry.materials key shared) key
  rw [← entered] at placed
  have tables :
      ((claimMaterial source.withoutContents primitive).run registry.withoutFingerprints).2 =
        ((claimMaterial source primitive).run registry).2.withoutFingerprints :=
    congrArg (fun table => { registry.withoutFingerprints with materials := table }) entered
  exact Prod.ext placed tables

/-- The objects of a mesh are the same with fingerprints and without. -/
theorem erases_primitiveObjects
    (index : Nat)
    (mesh : Gltf.Mesh) :
    Erases (primitiveObjects source index mesh)
      (primitiveObjects source.withoutContents index mesh) := by
  refine erases_mapM (fun primitive => ?_) mesh.primitives
  refine erases_bind (erases_claimName _) fun name => ?_
  refine erases_bind (erases_claimGeometry source primitive) fun geometry => ?_
  refine erases_bind (erases_claimMaterial source primitive) fun material => ?_
  exact erases_pure _

/-- The objects kept for a mesh are the same in both registries. -/
theorem erases_meshObjects
    (index : Nat)
    (mesh : Gltf.Mesh) :
    Erases (meshObjects source index mesh) (meshObjects source.withoutContents index mesh) := by
  intro registry
  have same : registry.withoutFingerprints.meshes = registry.meshes := rfl
  cases found : Registry.find? registry.meshes index with
  | some built =>
      simp only [meshObjects, StateT.run_bind, StateT.run_get, pure_bind, same, found]
      rfl
  | none =>
      have built := erases_primitiveObjects source index mesh registry
      simp only [meshObjects, StateT.run_bind, StateT.run_get, pure_bind, same, found, built]
      rfl

/-- Another use of a mesh is numbered the same with fingerprints and without. -/
theorem erases_numberedUse
    (index : Nat)
    (objects : List Scene.Node) :
    Erases (numberedUse source index objects)
      (numberedUse source.withoutContents index objects) := by
  have count : drawCount source.withoutContents index = drawCount source index := rfl
  unfold numberedUse
  rw [count]
  split
  · exact erases_pure objects
  · exact fun _ => rfl

/-- The mesh of a node is the same with fingerprints and without. -/
theorem erases_drawnMesh
    (node : Gltf.Node) :
    Erases (drawnMesh source node) (drawnMesh source.withoutContents node) := by
  have meshes : source.withoutContents.document.meshes = source.document.meshes := rfl
  unfold drawnMesh
  rw [meshes]
  split
  next index mesh _ =>
    refine erases_bind ?_ fun blueprint => erases_pure [blueprint]
    refine erases_bind (erases_meshObjects source index mesh) fun built => ?_
    refine erases_bind (erases_numberedUse source index _) fun objects => ?_
    exact erases_pure _
  next => exact erases_pure []

/-- The camera of a node is the same with fingerprints and without. -/
theorem erases_placedCamera
    (node : Gltf.Node) :
    Erases (placedCamera source node) (placedCamera source.withoutContents node) := by
  have cameras : source.withoutContents.document.cameras = source.document.cameras := rfl
  unfold placedCamera
  rw [cameras]
  split
  next camera _ =>
    refine erases_bind ?_ fun object => erases_pure _
    unfold cameraObject
    split
    · exact erases_bind (erases_claimName _) fun name => erases_pure _
    · exact erases_pure _
  next => exact erases_pure []

/-- The light of a node is the same with fingerprints and without. -/
theorem erases_placedLight
    (node : Gltf.Node) :
    Erases (placedLight source node) (placedLight source.withoutContents node) := by
  have lights : source.withoutContents.document = source.document := rfl
  unfold placedLight
  rw [lights]
  split
  next index light _ =>
    refine erases_bind ?_ fun object => erases_pure _
    exact erases_bind (erases_claimName _) fun name => erases_pure _
  next => exact erases_pure []

/-- All that a node carries is the same with fingerprints and without. -/
theorem erases_carried
    (node : Gltf.Node) :
    Erases (carried source node) (carried source.withoutContents node) := by
  rw [carried_eq, carried_eq]
  refine erases_bind (erases_drawnMesh source node) fun meshes => ?_
  refine erases_bind (erases_placedCamera source node) fun cameras => ?_
  refine erases_bind (erases_placedLight source node) fun lights => ?_
  exact erases_pure _

theorem erases_claimNodeName
    (node : Gltf.Node) :
    Erases (claimNodeName node) (claimNodeName node) := by
  unfold claimNodeName
  split
  · rw [← bind_pure_comp]
    exact erases_bind (erases_claimName _) fun name => erases_pure (some name)
  · exact erases_pure none

/-- The same stands for a node and the nodes below it. -/
theorem erases_blueprintOf
    (levels index : Nat) :
    Erases (blueprintOf source levels index) (blueprintOf source.withoutContents levels index) := by
  induction levels generalizing index with
  | zero =>
      rw [blueprintOf, blueprintOf, pure_bind, pure_bind]
      refine erases_bind (erases_claimNodeName _) fun name => ?_
      refine erases_bind (erases_carried source _) fun objects => ?_
      exact erases_bind (erases_pure []) fun children => erases_pure _
  | succ fewer ih =>
      rw [blueprintOf, blueprintOf, pure_bind, pure_bind]
      refine erases_bind (erases_claimNodeName _) fun name => ?_
      refine erases_bind (erases_carried source _) fun objects => ?_
      exact erases_bind (erases_mapM ih _) fun children => erases_pure _

/-- The blueprints of a scene are the same with fingerprints and without. -/
theorem erases_sceneBlueprints
    (scene : Gltf.Scene) :
    Erases (sceneBlueprints source scene) (sceneBlueprints source.withoutContents scene) := by
  have named : Erases (claimSceneName scene) (claimSceneName scene) := by
    unfold claimSceneName
    split
    · exact erases_claimName _
    · exact erases_pure ""
  refine erases_bind named fun name => ?_
  refine erases_bind (erases_mapM (erases_blueprintOf source _) _) fun blueprints => ?_
  exact erases_pure (name, blueprints)

end Steps

section Loaded

/-- Without contents a scene is assembled as with them, and so are the reports. -/
theorem assemble_withoutContents
    (source : Source)
    (scene : Gltf.Scene) :
    assemble source.withoutContents scene =
      ((assemble source scene).1.withoutFingerprints, (assemble source scene).2) := by
  have run := erases_sceneBlueprints source scene {}
  have empty : Registry.withoutFingerprints {} = {} := rfl
  rw [empty] at run
  unfold assemble
  rw [run]
  generalize (sceneBlueprints source scene).run {} = made
  obtain ⟨⟨name, blueprints⟩, registry⟩ := made
  have geometries :
      (registry.withoutFingerprints.geometries.map (·.2)).toArray =
        (registry.geometries.map (·.2)).toArray.map fun geometry =>
          { geometry with fingerprint := none } := by
    simp [Registry.withoutFingerprints, Function.comp_def]
  have materials :
      (registry.withoutFingerprints.materials.map (·.2)).toArray =
        (registry.materials.map (·.2)).toArray.map fun material =>
          { material with fingerprint := none } := by
    simp [Registry.withoutFingerprints, Function.comp_def]
  simp only [geometries, materials]
  rfl

/-- Where contents are looked at, everything in the tables has its fingerprint. -/
theorem fingerprinted_graphOf
    {source : Source}
    {scene : Gltf.Scene}
    {contents : Array ByteArray}
    (known : source.contents = some contents) :
    (graphOf source scene).Fingerprinted := by
  constructor
  · intro geometry member
    rw [geometries_graphOf, List.mem_toArray] at member
    obtain ⟨entry, listed, rfl⟩ := List.mem_map.mp member
    obtain ⟨primitive, _, rfl⟩ := kept_registryOf.geometries entry listed
    simp [entryOf, known]
  · intro material member
    rw [materials_graphOf, List.mem_toArray] at member
    obtain ⟨entry, listed, rfl⟩ := List.mem_map.mp member
    rw [(madeMaterials_registryOf entry listed).1]
    simp [materialEntry, known]

variable {tree : FileTree} {path : Path} {graph : SceneGraph} {reports : List Report}

/-- What is loaded from an asset that can be read and shows a scene. -/
theorem load_eq
    {asset : Gltf.Asset}
    {fingerprint : Bool}
    {source : Source}
    {scene : Gltf.Scene}
    (read : readAsset tree path = .ok asset)
    (sourced : sourceOf tree path asset fingerprint = .ok source)
    (shown : asset.document.shownScene? = some scene) :
    load tree path fingerprint =
      .ok (graphOf source scene,
        (assemble source scene).2 ++ [loadedReport path (graphOf source scene)]) := by
  simp only [load, bind, Except.bind, read, sourced, shown]
  rfl

/--
What is loaded with fingerprints is loaded without them too, and nothing but the
fingerprints is missing: nodes, links, tables, clips, extras and reports are the
same.
-/
theorem fingerprints_leave_the_scene
    (loaded : load tree path true = .ok (graph, reports)) :
    load tree path false = .ok (graph.withoutFingerprints, reports) ∧ graph.Fingerprinted := by
  rw [load] at loaded
  obtain ⟨asset, read, loaded⟩ := exists_of_bind loaded
  obtain ⟨source, sourced, loaded⟩ := exists_of_bind loaded
  obtain ⟨contents, rfl, _⟩ := contents_of_sourceOf sourced
  split at loaded
  · cases loaded
  next scene shown =>
    cases loaded
    refine ⟨?_, fingerprinted_graphOf rfl⟩
    have assembled :
        assemble ⟨asset.document, none⟩ scene =
          ((graphOf ⟨asset.document, some contents⟩ scene).withoutFingerprints,
            (assemble ⟨asset.document, some contents⟩ scene).2) :=
      assemble_withoutContents ⟨asset.document, some contents⟩ scene
    have bare : sourceOf tree path asset false = .ok ⟨asset.document, none⟩ := rfl
    -- The last report counts nodes and clips, which are the same.
    rw [load_eq read bare shown, graphOf, assembled]
    rfl

/-- A crate of one point, and the place of its file. -/
def crateYard : FileTree where
  entries :=
    [(["crate.gltf"], .file (
      "\x7b\"asset\":\x7b\"version\":\"2.0\"\x7d,\"scenes\":[\x7b\"nodes\":[0]\x7d],"
        ++ "\"nodes\":[\x7b\"mesh\":0\x7d],"
        ++ "\"meshes\":[\x7b\"primitives\":[\x7b\"attributes\":\x7b\"POSITION\":0\x7d\x7d]\x7d],"
        ++ "\"accessors\":[\x7b\"bufferView\":0,\"componentType\":5126,\"count\":1,"
        ++ "\"type\":\"VEC3\",\"min\":[0,0,0],\"max\":[0,0,0]\x7d],"
        ++ "\"bufferViews\":[\x7b\"buffer\":0,\"byteLength\":12\x7d],"
        ++ "\"buffers\":[\x7b\"uri\":\"crate.bin\",\"byteLength\":12\x7d]\x7d").toUTF8),
      (["crate.bin"], .file (List.replicate 12 0).toByteArray)]
  home := []

/-- The crate has its geometry and its material either way. -/
theorem fingerprints_leave_the_scene_crate :
    ∃ graph reports,
      load crateYard ⟨"crate.gltf"⟩ true = .ok (graph, reports) ∧
        graph.geometries.size = 1 ∧ graph.materials.size = 1 ∧
        load crateYard ⟨"crate.gltf"⟩ false = .ok (graph.withoutFingerprints, reports) ∧
        graph.Fingerprinted := by
  have sizes :
      ((load crateYard ⟨"crate.gltf"⟩ true).toOption.map fun made =>
        (made.1.geometries.size, made.1.materials.size)) = some (1, 1) := by
    decide +kernel
  cases loaded : load crateYard ⟨"crate.gltf"⟩ true with
  | error fault =>
      rw [loaded] at sizes
      cases sizes
  | ok made =>
      rw [loaded] at sizes
      obtain ⟨geometries, materials⟩ := Prod.ext_iff.mp (Option.some.inj sizes)
      exact ⟨made.1, made.2, rfl, geometries, materials, fingerprints_leave_the_scene loaded⟩

end Loaded

end SceneMarkup.Loading
