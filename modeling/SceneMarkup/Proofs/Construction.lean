import Mathlib.Data.List.Forall2
import SceneMarkup.Proofs.Registering

namespace SceneMarkup.Loading

open Gltf (Primitive)

/-!
# What construction makes

Every step of the construction leads from a registry and the facts known of it to
a value and a registry with facts of their own.  What is known of registries is
upheld if the few steps that write to them uphold it.  Whatever stood in the
registry before, the blueprint of a node has the shape that the document gives
it: only names and the places of geometries and materials come from the registry.
-/

/-- The step leads from registries of one sort to values and registries of another. -/
def Leads
    (before : Registry → Prop)
    (step : Building α)
    (after : α → Registry → Prop) :
    Prop :=
  ∀ registry, before registry → after (step.run registry).1 (step.run registry).2

section Rules

variable {before : Registry → Prop}

theorem leads_pure
    {value : α}
    {after : α → Registry → Prop}
    (holds : ∀ registry, before registry → after value registry) :
    Leads before (pure value) after :=
  holds

/-- One step leads to where the next one starts. -/
theorem leads_bind
    {step : Building α}
    {next : α → Building β}
    {middle : α → Registry → Prop}
    {after : β → Registry → Prop}
    (first : Leads before step middle)
    (later : ∀ value, Leads (middle value) (next value) after) :
    Leads before (step >>= next) after :=
  fun registry known => later _ _ (first registry known)

/-- Steps for the items of a list, each of which keeps what is known. -/
theorem leads_mapM
    {holds : Registry → Prop}
    {step : α → Building β}
    {fits : α → β → Prop}
    {items : List α}
    (each :
      ∀ item ∈ items,
        Leads holds (step item) fun value registry => holds registry ∧ fits item value) :
    Leads holds (items.mapM step) fun values registry =>
      holds registry ∧ List.Forall₂ fits items values := by
  induction items with
  | nil => exact fun registry known => ⟨known, .nil⟩
  | cons item rest ih =>
    rw [List.mapM_cons]
    intro registry known
    obtain ⟨middle, here⟩ := each item List.mem_cons_self registry known
    obtain ⟨last, others⟩ :=
      ih (fun other member => each other (List.mem_cons_of_mem item member)) _ middle
    exact ⟨last, .cons here others⟩

end Rules

section Shapes

/-- The object of a primitive, but for its name and the places of its geometry and material. -/
def Portrays
    (extras : Json.Members)
    (primitive : Primitive)
    (object : Scene.Node) :
    Prop :=
  ∃ name geometry material,
    object =
      { name := name
        kind := drawnKind (primitive.mode.getD .triangles)
        geometry := some geometry
        material := some material
        morphTargets := shapesOf extras primitive.targets.length
        userData := extras }

/-- The objects are the same up to their names. -/
def Renamed (first second : Scene.Node) : Prop :=
  ∃ name, second = { first with name := name }

variable (source : Source) (node : Gltf.Node)

/-- What stands for a mesh: its primitives as the node uses them, under any names. -/
def DepictsMesh (chosen : Nat × Gltf.Mesh) (blueprint : Blueprint) : Prop :=
  ∃ built objects,
    List.Forall₂ (Portrays (extrasMembers chosen.2.extras)) chosen.2.primitives built ∧
      List.Forall₂ Renamed (built.map (usedObject source node chosen.2)) objects ∧
      blueprint = .bundle (objects.map .leaf)

/-- What stands for a camera. -/
def DepictsCamera (camera : Gltf.Camera) (blueprint : Blueprint) : Prop :=
  ∃ name,
    blueprint =
      .leaf
        { name := name
          kind := .camera (cameraOf camera)
          userData := extrasMembers camera.extras }

/-- What stands for a light. -/
def DepictsLight (chosen : Nat × Gltf.Light) (blueprint : Blueprint) : Prop :=
  ∃ name, blueprint = .leaf { name := name, kind := .light (lightOf chosen.2) }

/-- The mesh that a node draws, with its place. -/
def meshOf? : Option (Nat × Gltf.Mesh) :=
  node.mesh.bind fun index => (source.document.meshes[index]?).map (index, ·)

/-- The camera that a node carries. -/
def cameraOf? : Option Gltf.Camera :=
  node.camera.bind fun index => source.document.cameras[index]?

/-- The light that a node carries, with its place. -/
def lightOf? : Option (Nat × Gltf.Light) :=
  node.light.bind fun index => (source.document.light? index).map (index, ·)

/-- What stands for the things that a node carries: its mesh, its camera and its light. -/
def DepictsCarried (blueprints : List Blueprint) : Prop :=
  ∃ meshes cameras lights,
    List.Forall₂ (DepictsMesh source node) (meshOf? source node).toList meshes ∧
      List.Forall₂ DepictsCamera (cameraOf? source node).toList cameras ∧
      List.Forall₂ DepictsLight (lightOf? source node).toList lights ∧
      blueprints = meshes ++ cameras ++ lights

/-- The node at a place of the document. -/
def nodeAt (index : Nat) : Gltf.Node :=
  (source.document.nodes[index]?).getD .absent

/-- What stands for a node, above what stands for its children. -/
def DepictsOver (index : Nat) (children : List Blueprint) (blueprint : Blueprint) : Prop :=
  ∃ name objects,
    DepictsCarried source (nodeAt source index) objects ∧
      blueprint =
        standIn index (nodeAt source index) name children
          (holder (isJoint source index) objects)

/-- What stands for a node and for the nodes at most so many levels below it. -/
def Depicts : Nat → Nat → Blueprint → Prop
  | 0, index, blueprint => DepictsOver source index [] blueprint
  | fewer + 1, index, blueprint =>
      ∃ children,
        List.Forall₂ (Depicts fewer) (nodeAt source index).children children ∧
          DepictsOver source index children blueprint

end Shapes

section Walk

variable {source : Source} {holds : Registry → Prop}

/-- The steps that write to the registry keep what is known of it. -/
structure Upheld (source : Source) (holds : Registry → Prop) : Prop where
  name : ∀ asked, Leads holds (claimName asked) fun _ => holds
  geometry : ∀ primitive, Leads holds (claimGeometry source primitive) fun _ => holds
  material : ∀ primitive, Leads holds (claimMaterial source primitive) fun _ => holds
  meshes : ∀ registry meshes, holds registry → holds { registry with meshes := meshes }
  uses : ∀ registry uses, holds registry → holds { registry with uses := uses }

/-- What is known holds, and the objects kept for a mesh portray its primitives. -/
structure Stocked (source : Source) (holds : Registry → Prop) (registry : Registry) : Prop where
  known : holds registry
  meshes :
    ∀ index built, Registry.find? registry.meshes index = some built →
      ∃ mesh, source.document.meshes[index]? = some mesh ∧
        List.Forall₂ (Portrays (extrasMembers mesh.extras)) mesh.primitives built

/-- The empty registry keeps no objects. -/
theorem stocked_empty
    (known : holds {}) :
    Stocked source holds {} where
  known := known
  meshes index built found := by cases found

/-- Steps that leave the meshes alone keep what is in stock. -/
theorem Leads.stocked
    {step : Building α}
    (leads : Leads holds step fun _ => holds)
    (aside : ∀ registry, (step.run registry).2.meshes = registry.meshes) :
    Leads (Stocked source holds) step fun _ => Stocked source holds := by
  intro registry stocked
  refine ⟨leads registry stocked.known, ?_⟩
  rw [aside]
  exact stocked.meshes

variable (upheld : Upheld source holds)
include upheld

theorem Upheld.leads_claimName
    (asked : String) :
    Leads (Stocked source holds) (claimName asked) fun _ => Stocked source holds :=
  (upheld.name asked).stocked fun _ => rfl

/-- The object of a primitive portrays it. -/
theorem Upheld.leads_primitiveObject
    (base : String)
    (extras : Json.Members)
    (primitive : Primitive) :
    Leads (Stocked source holds) (primitiveObject source base extras primitive)
      fun object registry =>
        Stocked source holds registry ∧ Portrays extras primitive object := by
  refine leads_bind (upheld.leads_claimName base) fun name => ?_
  refine leads_bind ((upheld.geometry primitive).stocked fun _ => rfl) fun geometry => ?_
  refine leads_bind ((upheld.material primitive).stocked fun _ => rfl) fun material => ?_
  exact leads_pure fun registry stocked => ⟨stocked, name, geometry, material, rfl⟩

/-- The objects of a mesh portray its primitives, at the first use and at every later one. -/
theorem Upheld.leads_meshObjects
    {index : Nat}
    {mesh : Gltf.Mesh}
    (indexed : source.document.meshes[index]? = some mesh) :
    Leads (Stocked source holds) (meshObjects source index mesh) fun built registry =>
      Stocked source holds registry ∧
        List.Forall₂ (Portrays (extrasMembers mesh.extras)) mesh.primitives built := by
  intro registry stocked
  cases found : Registry.find? registry.meshes index with
  | some built =>
    have run : (meshObjects source index mesh).run registry = (built, registry) := by
      simp only [meshObjects, StateT.run_bind, StateT.run_get, pure_bind, found]
      rfl
    rw [run]
    obtain ⟨other, same, portrayed⟩ := stocked.meshes index built found
    obtain rfl : mesh = other := Option.some.inj (indexed.symm.trans same)
    exact ⟨stocked, portrayed⟩
  | none =>
    obtain ⟨after, portrayed⟩ :=
      leads_mapM (fun primitive _ => upheld.leads_primitiveObject
        (mesh.name.getD ("mesh_" ++ toString index)) (extrasMembers mesh.extras) primitive)
        registry stocked
    have run : (meshObjects source index mesh).run registry =
        let built := (primitiveObjects source index mesh).run registry
        (built.1, { built.2 with
          meshes := Registry.assign built.2.meshes index built.1 }) := by
      simp only [meshObjects, StateT.run_bind, StateT.run_get, pure_bind, found]
      rfl
    rw [run]
    refine ⟨⟨upheld.meshes _ _ after.known, ?_⟩, portrayed⟩
    intro other objects listed
    rw [Registry.find?_assign] at listed
    split at listed
    next same =>
      cases listed
      exact ⟨mesh, same ▸ indexed, portrayed⟩
    next => exact after.meshes other objects listed

/-- Another use of a mesh renames its objects and changes nothing else. -/
theorem Upheld.leads_numberedUse
    (index : Nat)
    (objects : List Scene.Node) :
    Leads (Stocked source holds) (numberedUse source index objects) fun renamed registry =>
      Stocked source holds registry ∧ List.Forall₂ Renamed objects renamed := by
  have same : List.Forall₂ Renamed objects objects :=
    List.forall₂_same.mpr fun object _ => ⟨object.name, rfl⟩
  rw [numberedUse]
  split
  · exact leads_pure fun registry stocked => ⟨stocked, same⟩
  · intro registry stocked
    refine ⟨⟨upheld.uses _ _ stocked.known, stocked.meshes⟩, ?_⟩
    refine List.forall₂_map_right_iff.mpr (List.forall₂_same.mpr ?_)
    exact fun object _ => ⟨_, rfl⟩

/-- What is hung below a node depicts the mesh. -/
theorem Upheld.leads_meshBlueprint
    (node : Gltf.Node)
    {index : Nat}
    {mesh : Gltf.Mesh}
    (indexed : source.document.meshes[index]? = some mesh) :
    Leads (Stocked source holds) (meshBlueprint source node index mesh) fun blueprint registry =>
      Stocked source holds registry ∧ DepictsMesh source node (index, mesh) blueprint := by
  refine leads_bind (upheld.leads_meshObjects indexed) fun built registry known => ?_
  obtain ⟨stocked, portrayed⟩ := known
  obtain ⟨after, renamed⟩ := upheld.leads_numberedUse index _ registry stocked
  exact ⟨after, built, _, portrayed, renamed, rfl⟩

/-- The mesh of a node is depicted if the node has one. -/
theorem Upheld.leads_drawnMesh
    (node : Gltf.Node) :
    Leads (Stocked source holds) (drawnMesh source node) fun blueprints registry =>
      Stocked source holds registry ∧
        List.Forall₂ (DepictsMesh source node) (meshOf? source node).toList blueprints := by
  unfold drawnMesh meshOf?
  split
  next index mesh chosen =>
    rw [chosen]
    obtain ⟨place, _, placed⟩ := Option.bind_eq_some_iff.mp chosen
    obtain ⟨found, indexed, same⟩ := Option.map_eq_some_iff.mp placed
    cases same
    refine leads_bind (upheld.leads_meshBlueprint node indexed) fun blueprint => ?_
    exact leads_pure fun registry known => ⟨known.1, .cons known.2 .nil⟩
  next none =>
    rw [none]
    exact leads_pure fun registry stocked => ⟨stocked, .nil⟩

/-- The camera of a node is depicted if the node has one. -/
theorem Upheld.leads_placedCamera
    (node : Gltf.Node) :
    Leads (Stocked source holds) (placedCamera source node) fun blueprints registry =>
      Stocked source holds registry ∧
        List.Forall₂ DepictsCamera (cameraOf? source node).toList blueprints := by
  have object :
      ∀ camera, Leads (Stocked source holds) (cameraObject camera) fun object registry =>
        Stocked source holds registry ∧ DepictsCamera camera (.leaf object) := by
    intro camera
    unfold cameraObject
    split
    · refine leads_bind (upheld.leads_claimName _) fun name => ?_
      exact leads_pure fun registry stocked => ⟨stocked, name, rfl⟩
    · exact leads_pure fun registry stocked => ⟨stocked, "", rfl⟩
  unfold placedCamera cameraOf?
  split
  next camera chosen =>
    rw [chosen]
    refine leads_bind (object camera) fun placed => ?_
    exact leads_pure fun registry known => ⟨known.1, .cons known.2 .nil⟩
  next none =>
    rw [none]
    exact leads_pure fun registry stocked => ⟨stocked, .nil⟩

/-- The light of a node is depicted if the node has one. -/
theorem Upheld.leads_placedLight
    (node : Gltf.Node) :
    Leads (Stocked source holds) (placedLight source node) fun blueprints registry =>
      Stocked source holds registry ∧
        List.Forall₂ DepictsLight (lightOf? source node).toList blueprints := by
  have object :
      ∀ index light,
        Leads (Stocked source holds) (lightObject index light) fun object registry =>
          Stocked source holds registry ∧ DepictsLight (index, light) (.leaf object) := by
    intro index light
    unfold lightObject
    refine leads_bind (upheld.leads_claimName _) fun name => ?_
    exact leads_pure fun registry stocked => ⟨stocked, name, rfl⟩
  unfold placedLight lightOf?
  split
  next index light chosen =>
    rw [chosen]
    refine leads_bind (object index light) fun placed => ?_
    exact leads_pure fun registry known => ⟨known.1, .cons known.2 .nil⟩
  next none =>
    rw [none]
    exact leads_pure fun registry stocked => ⟨stocked, .nil⟩

/-- What a node carries is depicted in order. -/
theorem Upheld.leads_carried
    (node : Gltf.Node) :
    Leads (Stocked source holds) (carried source node) fun blueprints registry =>
      Stocked source holds registry ∧ DepictsCarried source node blueprints := by
  rw [carried_eq]
  intro registry stocked
  obtain ⟨drawn, meshes⟩ := upheld.leads_drawnMesh node registry stocked
  obtain ⟨placed, cameras⟩ := upheld.leads_placedCamera node _ drawn
  obtain ⟨lit, lights⟩ := upheld.leads_placedLight node _ placed
  exact ⟨lit, _, _, _, meshes, cameras, lights, rfl⟩

theorem Upheld.leads_claimNodeName
    (node : Gltf.Node) :
    Leads (Stocked source holds) (claimNodeName node) fun _ => Stocked source holds := by
  unfold claimNodeName
  split
  · exact leads_bind (upheld.leads_claimName _) fun name => leads_pure fun _ stocked => stocked
  · exact leads_pure fun _ stocked => stocked

/-- What is made for a node depicts it. -/
theorem Upheld.leads_blueprintOf
    (levels index : Nat) :
    Leads (Stocked source holds) (blueprintOf source levels index) fun blueprint registry =>
      Stocked source holds registry ∧ Depicts source levels index blueprint := by
  induction levels generalizing index with
  | zero =>
    rw [blueprintOf]
    intro registry stocked
    have named := upheld.leads_claimNodeName (nodeAt source index) registry stocked
    obtain ⟨after, carries⟩ := upheld.leads_carried (nodeAt source index) _ named
    exact ⟨after, _, _, carries, rfl⟩
  | succ fewer ih =>
    rw [blueprintOf]
    intro registry stocked
    have named := upheld.leads_claimNodeName (nodeAt source index) registry stocked
    obtain ⟨middle, carries⟩ := upheld.leads_carried (nodeAt source index) _ named
    obtain ⟨after, children⟩ :=
      leads_mapM (fun child (_ : child ∈ (nodeAt source index).children) => ih child) _ middle
    exact ⟨after, _, children, _, _, carries, rfl⟩

/-- What is known holds after the construction of a scene, and the blueprints depict its nodes. -/
theorem Upheld.leads_sceneBlueprints
    (scene : Gltf.Scene) :
    Leads (Stocked source holds) (sceneBlueprints source scene) fun made registry =>
      Stocked source holds registry ∧
        List.Forall₂ (Depicts source source.document.nodes.size) scene.nodes made.2 := by
  have named : Leads (Stocked source holds) (claimSceneName scene) fun _ =>
      Stocked source holds := by
    unfold claimSceneName
    split
    · exact upheld.leads_claimName _
    · exact leads_pure fun _ stocked => stocked
  refine leads_bind named fun name => ?_
  refine leads_bind (leads_mapM fun root _ => upheld.leads_blueprintOf _ root) fun blueprints => ?_
  exact leads_pure fun _ made => made

end Walk

end SceneMarkup.Loading
