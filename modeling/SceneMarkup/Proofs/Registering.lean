import Mathlib.Data.List.Find
import Mathlib.Data.List.Forall2
import Mathlib.Data.List.Infix
import SceneMarkup.Loading.Assembly
import SceneMarkup.Proofs.Drawings

namespace SceneMarkup.Loading

open Gltf (Document Primitive)
open Scene (Geometry GeometryId)

/-!
# What the registry knows

While a scene is built the tables of the registry only grow.  Every entry of the
table of geometries was made for a primitive of the document, and the objects of
a mesh stay those of its primitives: each carries the place of its primitive's
key.  These facts hold after every step of the construction, so they hold of the
registry that the scene is assembled from.
-/

namespace Registry

variable {κ : Type} {α : Type} {table later : List (κ × α)} {key : κ}

/-- The table has an entry for the key. -/
def Lists (table : List (κ × α)) (key : κ) : Prop :=
  ∃ entry ∈ table, entry.1 = key

/-- A table that has grown lists what it listed before. -/
theorem Lists.mono
    (lists : Lists table key)
    (grown : table <+: later) :
    Lists later key := by
  obtain ⟨entry, member, named⟩ := lists
  exact ⟨entry, grown.subset member, named⟩

variable [DecidableEq κ]

/-- A listed key has a place inside the table. -/
theorem Lists.place_lt
    (lists : Lists table key) :
    place table key < table.length := by
  obtain ⟨entry, member, named⟩ := lists
  exact List.findIdx_lt_length_of_exists ⟨entry, member, by simpa using named⟩

/-- Keys stay at their places. -/
theorem Lists.place_eq
    (lists : Lists table key)
    (grown : table <+: later) :
    place later key = place table key := by
  obtain ⟨more, rfl⟩ := grown
  rw [place, List.findIdx_append]
  exact if_pos lists.place_lt

/-- At the place of a key stands an entry for it. -/
theorem Lists.getElem?_place
    (lists : Lists table key) :
    ∃ entry, table[place table key]? = some entry ∧ entry.1 = key := by
  have inside := lists.place_lt
  refine ⟨table[place table key], List.getElem?_eq_getElem inside, ?_⟩
  exact of_decide_eq_true (List.findIdx_getElem (w := inside))

/-- Entering a key leaves the earlier entries where they are. -/
theorem prefix_enter (value : α) :
    table <+: enter table key value := by
  rw [enter]
  split
  · exact List.prefix_rfl
  · exact List.prefix_append table _

/-- A key that was entered is listed. -/
theorem lists_enter (value : α) :
    Lists (enter table key value) key := by
  rw [enter]
  split
  next listed =>
    obtain ⟨entry, member, named⟩ := List.any_eq_true.mp listed
    exact ⟨entry, member, by simpa using named⟩
  next => exact ⟨(key, value), by simp, rfl⟩

/-- Entering brings at most one entry. -/
theorem mem_enter
    {value : α}
    {entry : κ × α}
    (member : entry ∈ enter table key value) :
    entry ∈ table ∨ entry = (key, value) := by
  rw [enter] at member
  split at member
  · exact .inl member
  · simpa using member

/-- A key that is assigned has its value, and the others keep theirs. -/
theorem find?_assign
    (value : α)
    (other : κ) :
    find? (assign table key value) other =
      if other = key then some value else find? table other := by
  by_cases same : other = key
  · simp [find?, assign, same]
  · have differs : ¬ key = other := fun equal => same equal.symm
    simp only [find?, assign, List.find?_cons, differs, decide_false, if_neg same,
      List.find?_filter]
    congr 2
    funext entry
    by_cases here : entry.1 = other <;> simp [here, same]

end Registry

section Facts

/-- What is entered for a primitive. -/
def entryOf (source : Source) (primitive : Primitive) : GeometryKey × Geometry :=
  (keyOf primitive, ⟨source.contents.map (primitiveFingerprint source.document · primitive)⟩)

/-- An object carries the geometry of a primitive. -/
structure Drawn
    (table : List (GeometryKey × Geometry))
    (primitive : Primitive)
    (object : Scene.Node) :
    Prop where
  listed : Registry.Lists table (keyOf primitive)
  geometry : object.geometry = some (Registry.place table (keyOf primitive))

/-- An object drawn for a primitive keeps its place when more geometries are entered. -/
theorem Drawn.mono
    {table later : List (GeometryKey × Geometry)}
    {primitive : Primitive}
    {object : Scene.Node}
    (drawn : Drawn table primitive object)
    (grown : table <+: later) :
    Drawn later primitive object where
  listed := drawn.listed.mono grown
  geometry := by rw [drawn.geometry, drawn.listed.place_eq grown]

/-- What is known of the tables of a registry. -/
structure Kept (source : Source) (registry : Registry) : Prop where
  geometries :
    ∀ entry ∈ registry.geometries,
      ∃ primitive, Known source.document primitive ∧ entry = entryOf source primitive
  meshes :
    ∀ index built, Registry.find? registry.meshes index = some built →
      ∃ mesh, source.document.meshes[index]? = some mesh ∧
        List.Forall₂ (Drawn registry.geometries) mesh.primitives built

/-- The empty registry keeps nothing, so that there is nothing to check. -/
theorem kept_empty (source : Source) : Kept source {} where
  geometries entry member := by cases member
  meshes index built found := by cases found

/-- The registry went on from one state to another. -/
structure Advances (source : Source) (before after : Registry) : Prop where
  kept : Kept source after
  geometries : before.geometries <+: after.geometries
  meshes :
    ∀ index built, Registry.find? before.meshes index = some built →
      Registry.find? after.meshes index = some built

/-- What two steps leave in place stays in place through both. -/
theorem Advances.trans
    {source : Source}
    {first second third : Registry}
    (earlier : Advances source first second)
    (later : Advances source second third) :
    Advances source first third where
  kept := later.kept
  geometries := earlier.geometries.trans later.geometries
  meshes index built found := later.meshes index built (earlier.meshes index built found)

/-- Steps that touch neither geometries nor meshes keep what is known. -/
theorem Kept.advances
    {source : Source}
    {before after : Registry}
    (kept : Kept source before)
    (geometries : after.geometries = before.geometries)
    (meshes : after.meshes = before.meshes) :
    Advances source before after where
  kept :=
    { geometries := by rw [geometries]; exact kept.geometries
      meshes := by rw [geometries, meshes]; exact kept.meshes }
  geometries := by rw [geometries]
  meshes := by rw [meshes]; exact fun _ _ found => found

end Facts

section Steps

variable {source : Source} {registry : Registry}

/-- A step advances the registry, and its value fits the registry afterwards. -/
def Yields
    (source : Source)
    (registry : Registry)
    (step : Building α)
    (fits : α → Registry → Prop) :
    Prop :=
  Advances source registry (step.run registry).2 ∧
    fits (step.run registry).1 (step.run registry).2

theorem yields_pure
    (kept : Kept source registry)
    {value : α}
    {fits : α → Registry → Prop}
    (holds : fits value registry) :
    Yields source registry (pure value) fits :=
  ⟨kept.advances rfl rfl, holds⟩

/--
A step and what follows it: the later one starts from a registry that the first has
advanced.
-/
theorem yields_bind
    {first : Building α}
    {next : α → Building β}
    {middle : α → Registry → Prop}
    {fits : β → Registry → Prop}
    (here : Yields source registry first middle)
    (later :
      ∀ value after, Advances source registry after → middle value after →
        Yields source after (next value) fits) :
    Yields source registry (first >>= next) fits := by
  obtain ⟨advances, holds⟩ := here
  obtain ⟨further, fitting⟩ := later _ _ advances holds
  exact ⟨advances.trans further, fitting⟩

/-- What a step yields may be said in weaker words. -/
theorem Yields.imp
    {step : Building α}
    {strong weak : α → Registry → Prop}
    (yields : Yields source registry step strong)
    (weaker : ∀ value after, Advances source registry after → strong value after → weak value after) :
    Yields source registry step weak :=
  ⟨yields.1, weaker _ _ yields.1 yields.2⟩

/-- What fits a registry still fits when the registry has advanced. -/
def Stable (source : Source) (fits : α → Registry → Prop) : Prop :=
  ∀ value before after, Advances source before after → fits value before → fits value after

/-- Steps for the items of a list yield a value for each. -/
theorem yields_mapM
    {step : α → Building β}
    {fits : α → β → Registry → Prop}
    (stable : ∀ item, Stable source (fits item))
    {items : List α}
    (each :
      ∀ item ∈ items, ∀ before, Kept source before →
        Yields source before (step item) (fits item))
    (kept : Kept source registry) :
    Yields source registry (items.mapM step) fun values after =>
      List.Forall₂ (fun item value => fits item value after) items values := by
  induction items generalizing registry with
  | nil => exact yields_pure kept .nil
  | cons item items ih =>
    rw [List.mapM_cons]
    apply yields_bind (each item List.mem_cons_self registry kept)
    intro value middle advances here
    have others := ih (fun other member => each other (List.mem_cons_of_mem item member))
      advances.kept
    apply yields_bind others
    intro values after further there
    exact yields_pure further.kept (.cons (stable item value middle after further here) there)

/-- A step that touches neither geometries nor meshes. -/
def Aside (step : Building α) : Prop :=
  ∀ registry,
    (step.run registry).2.geometries = registry.geometries ∧
      (step.run registry).2.meshes = registry.meshes

/-- What a step aside gives is known of its value alone. -/
theorem Aside.yields
    {step : Building α}
    (aside : Aside step)
    (kept : Kept source registry)
    {fits : α → Prop}
    (holds : ∀ before, fits (step.run before).1) :
    Yields source registry step fun value _ => fits value :=
  ⟨kept.advances (aside registry).1 (aside registry).2, holds registry⟩

/-- A step that touches neither meshes nor geometries advances every registry. -/
theorem Aside.advances
    {step : Building α}
    (aside : Aside step)
    (kept : Kept source registry) :
    Yields source registry step fun _ _ => True :=
  ⟨kept.advances (aside registry).1 (aside registry).2, trivial⟩

theorem aside_claimName (name : String) : Aside (claimName name) :=
  fun _ => ⟨rfl, rfl⟩

theorem aside_claimMaterial (primitive : Primitive) : Aside (claimMaterial source primitive) :=
  fun _ => ⟨rfl, rfl⟩

theorem aside_claimNodeName (node : Gltf.Node) : Aside (claimNodeName node) := by
  intro registry
  rw [claimNodeName]
  cases node.name <;> exact ⟨rfl, rfl⟩

theorem aside_claimSceneName (scene : Gltf.Scene) : Aside (claimSceneName scene) := by
  intro registry
  rw [claimSceneName]
  cases scene.name <;> exact ⟨rfl, rfl⟩

theorem aside_cameraObject (camera : Gltf.Camera) : Aside (cameraObject camera) := by
  intro registry
  rw [cameraObject]
  cases camera.name <;> exact ⟨rfl, rfl⟩

theorem aside_lightObject
    (index : Nat)
    (light : Gltf.Light) :
    Aside (lightObject index light) :=
  fun _ => ⟨rfl, rfl⟩

theorem aside_numberedUse
    (index : Nat)
    (objects : List Scene.Node) :
    Aside (numberedUse source index objects) := by
  intro registry
  rw [numberedUse]
  split <;> exact ⟨rfl, rfl⟩

/-- A camera carries no geometry. -/
theorem geometry_cameraObject
    (camera : Gltf.Camera) :
    ((cameraObject camera).run registry).1.geometry = none := by
  rw [cameraObject]
  cases camera.name <;> rfl

/-- Another use of a mesh carries the geometries of the objects it copies. -/
theorem geometry_numberedUse
    (index : Nat)
    (objects : List Scene.Node) :
    ((numberedUse source index objects).run registry).1.map (·.geometry) =
      objects.map (·.geometry) := by
  rw [numberedUse]
  split
  · rfl
  · simp only [StateT.run_bind, StateT.run_get, StateT.run_modify, StateT.run_pure, pure_bind]
    exact List.map_map

end Steps

section Geometries

variable {source : Source} {registry : Registry}

/-- A primitive of the document gets the place of its key. -/
theorem yields_claimGeometry
    (kept : Kept source registry)
    {primitive : Primitive}
    (known : Known source.document primitive) :
    Yields source registry (claimGeometry source primitive) fun geometry after =>
      Registry.Lists after.geometries (keyOf primitive) ∧
        geometry = Registry.place after.geometries (keyOf primitive) := by
  have grown : registry.geometries <+:
      Registry.enter registry.geometries (keyOf primitive) (entryOf source primitive).2 :=
    Registry.prefix_enter _
  refine ⟨⟨⟨?_, ?_⟩, grown, fun _ _ found => found⟩, Registry.lists_enter _, rfl⟩
  · intro entry member
    rcases Registry.mem_enter member with earlier | rfl
    · exact kept.geometries entry earlier
    · exact ⟨primitive, known, rfl⟩
  · intro index built found
    obtain ⟨mesh, indexed, drawn⟩ := kept.meshes index built found
    exact ⟨mesh, indexed, drawn.imp fun _ _ one => one.mono grown⟩

/-- Being drawn for a primitive outlasts every later step. -/
theorem stable_drawn (primitive : Primitive) :
    Stable source fun object after => Drawn after.geometries primitive object :=
  fun _ _ _ advances drawn => drawn.mono advances.geometries

/-- The object of a primitive carries the geometry that its key is listed under. -/
theorem yields_primitiveObject
    (base : String)
    (extras : Json.Members)
    (kept : Kept source registry)
    {primitive : Primitive}
    (known : Known source.document primitive) :
    Yields source registry (primitiveObject source base extras primitive) fun object after =>
      Drawn after.geometries primitive object := by
  apply yields_bind ((aside_claimName base).advances kept)
  intro name named advances _
  apply yields_bind (yields_claimGeometry advances.kept known)
  rintro geometry placed further ⟨listed, rfl⟩
  apply yields_bind ((aside_claimMaterial primitive).advances further.kept)
  intro material after last _
  apply yields_pure last.kept
  exact ⟨listed.mono last.geometries, by rw [listed.place_eq last.geometries]⟩

/-- The objects of a mesh are drawn for its primitives one by one. -/
theorem yields_primitiveObjects
    (kept : Kept source registry)
    {index : Nat}
    {mesh : Gltf.Mesh}
    (indexed : source.document.meshes[index]? = some mesh) :
    Yields source registry (primitiveObjects source index mesh) fun built after =>
      List.Forall₂ (Drawn after.geometries) mesh.primitives built := by
  refine yields_mapM stable_drawn ?_ kept
  intro primitive member before keptBefore
  have known : Known source.document primitive := ⟨mesh, Array.mem_of_getElem? indexed, member⟩
  exact yields_primitiveObject _ _ keptBefore known

/-- A mesh whose objects are drawn for its primitives can be kept under its index. -/
theorem Kept.assign
    (kept : Kept source registry)
    {index : Nat}
    {mesh : Gltf.Mesh}
    (indexed : source.document.meshes[index]? = some mesh)
    {built : List Scene.Node}
    (drawn : List.Forall₂ (Drawn registry.geometries) mesh.primitives built) :
    Kept source { registry with meshes := Registry.assign registry.meshes index built } where
  geometries := kept.geometries
  meshes := by
    intro other objects found
    rw [Registry.find?_assign] at found
    split at found
    next same =>
      cases found
      exact ⟨mesh, same ▸ indexed, drawn⟩
    next => exact kept.meshes other objects found

/-- The objects of a mesh are those that the registry has for it. -/
theorem yields_meshObjects
    (kept : Kept source registry)
    {index : Nat}
    {mesh : Gltf.Mesh}
    (indexed : source.document.meshes[index]? = some mesh) :
    Yields source registry (meshObjects source index mesh) fun built after =>
      Registry.find? after.meshes index = some built := by
  cases found : Registry.find? registry.meshes index with
  | some built =>
    have run : (meshObjects source index mesh).run registry = (built, registry) := by
      simp only [meshObjects, StateT.run_bind, StateT.run_get, pure_bind, found]
      rfl
    rw [Yields, run]
    exact ⟨kept.advances rfl rfl, found⟩
  | none =>
    obtain ⟨advances, drawn⟩ := yields_primitiveObjects kept indexed
    generalize outcome : (primitiveObjects source index mesh).run registry = built at *
    obtain ⟨objects, after⟩ := built
    have run : (meshObjects source index mesh).run registry =
        (objects, { after with meshes := Registry.assign after.meshes index objects }) := by
      simp only [meshObjects, StateT.run_bind, StateT.run_get, pure_bind, found, outcome]
      rfl
    rw [Yields, run]
    refine ⟨⟨advances.kept.assign indexed drawn, advances.geometries, ?_⟩, ?_⟩
    · -- Nothing was there for this mesh, so whatever stood before stands for another.
      intro other earlier stood
      have differs : other ≠ index := by
        rintro rfl
        simp [found] at stood
      rw [Registry.find?_assign, if_neg differs]
      exact advances.meshes other earlier stood
    · rw [Registry.find?_assign, if_pos rfl]

end Geometries

namespace Blueprint

mutual

/-- The geometries that the objects of a blueprint carry. -/
def geometries : Blueprint → List GeometryId
  | .object node _ children => node.geometry.toList ++ geometriesOfAll children

/-- The geometries that the objects of some blueprints carry. -/
def geometriesOfAll : List Blueprint → List GeometryId
  | [] => []
  | first :: rest => geometries first ++ geometriesOfAll rest

end

/-- The geometries of two rows of blueprints stand one row after the other. -/
theorem geometriesOfAll_append
    (first second : List Blueprint) :
    geometriesOfAll (first ++ second) = geometriesOfAll first ++ geometriesOfAll second := by
  induction first with
  | nil => rfl
  | cons one rest ih => simp [geometriesOfAll, ih]

@[simp] theorem geometries_leaf (node : Scene.Node) :
    (leaf node).geometries = node.geometry.toList := by
  simp [leaf, geometries, geometriesOfAll]

theorem geometriesOfAll_leaves (objects : List Scene.Node) :
    geometriesOfAll (objects.map .leaf) = (objects.map (·.geometry)).flatMap Option.toList := by
  induction objects with
  | nil => rfl
  | cons object rest ih => simp [geometriesOfAll, ih]

/-- A bundle adds no geometry of its own. -/
theorem geometries_bundle (blueprints : List Blueprint) :
    (bundle blueprints).geometries = geometriesOfAll blueprints := by
  rw [bundle.eq_def]
  split <;> simp [geometries, geometriesOfAll]

/-- A holder adds no geometry to those of what it holds. -/
theorem geometries_holder
    (joint : Bool)
    (objects : List Blueprint) :
    (holder joint objects).geometries = geometriesOfAll objects := by
  cases joint with
  | true => simp [holder, geometries]
  | false =>
    cases objects with
    | nil => simp [holder, geometriesOfAll]
    | cons first rest => exact geometries_bundle (first :: rest)

/-- What stands in for a node carries its own geometries and those of the children. -/
theorem geometries_standIn
    (index : Nat)
    (node : Gltf.Node)
    (name : Option String)
    (children : List Blueprint)
    (blueprint : Blueprint) :
    (standIn index node name children blueprint).geometries =
      blueprint.geometries ++ geometriesOfAll children := by
  cases blueprint
  simp [standIn, geometries, geometriesOfAll_append]

end Blueprint

section Blueprints

variable {source : Source} {registry : Registry}

/-- The registry has an object that was built for a primitive. -/
def Builds
    (source : Source)
    (registry : Registry)
    (primitive : Primitive)
    (object : Scene.Node) :
    Prop :=
  ∃ index mesh built,
    source.document.meshes[index]? = some mesh ∧
      Registry.find? registry.meshes index = some built ∧
      (primitive, object) ∈ mesh.primitives.zip built

/-- All of the geometries were built for primitives. -/
def Covered
    (source : Source)
    (registry : Registry)
    (geometries : List GeometryId) :
    Prop :=
  ∀ geometry ∈ geometries,
    ∃ primitive object, Builds source registry primitive object ∧ object.geometry = some geometry

/-- An object that was built for a primitive carries the place of its key. -/
theorem Kept.drawn
    (kept : Kept source registry)
    {primitive : Primitive}
    {object : Scene.Node}
    (builds : Builds source registry primitive object) :
    Known source.document primitive ∧ Drawn registry.geometries primitive object := by
  obtain ⟨index, mesh, built, indexed, found, member⟩ := builds
  obtain ⟨other, same, drawn⟩ := kept.meshes index built found
  obtain rfl : mesh = other := Option.some.inj (indexed.symm.trans same)
  refine ⟨⟨mesh, Array.mem_of_getElem? indexed, (List.of_mem_zip member).1⟩, ?_⟩
  exact List.forall₂_zip drawn member

/-- Geometries that are covered stay covered in an advanced registry. -/
theorem Covered.mono
    {after : Registry}
    {geometries : List GeometryId}
    (covered : Covered source registry geometries)
    (advances : Advances source registry after) :
    Covered source after geometries := by
  intro geometry member
  obtain ⟨primitive, object, ⟨index, mesh, built, indexed, found, drawn⟩, carries⟩ :=
    covered geometry member
  exact ⟨primitive, object,
    ⟨index, mesh, built, indexed, advances.meshes index built found, drawn⟩, carries⟩

/-- Two rows of covered geometries are covered together. -/
theorem Covered.append
    {first second : List GeometryId}
    (left : Covered source registry first)
    (right : Covered source registry second) :
    Covered source registry (first ++ second) := by
  intro geometry member
  rcases List.mem_append.mp member with early | late
  · exact left geometry early
  · exact right geometry late

theorem covered_nil : Covered source registry [] := by
  intro geometry member
  cases member

/-- The geometries of a mesh's objects were built for its primitives. -/
theorem Kept.covered
    (kept : Kept source registry)
    {index : Nat}
    {built : List Scene.Node}
    (found : Registry.find? registry.meshes index = some built) :
    Covered source registry ((built.map (·.geometry)).flatMap Option.toList) := by
  intro geometry member
  obtain ⟨_, mapped, carries⟩ := List.mem_flatMap.mp member
  obtain ⟨object, belongs, rfl⟩ := List.mem_map.mp mapped
  obtain ⟨mesh, indexed, drawn⟩ := kept.meshes index built found
  obtain ⟨place, inside, rfl⟩ := List.mem_iff_getElem.mp belongs
  have partnered : place < mesh.primitives.length := by rw [drawn.length_eq]; exact inside
  refine ⟨mesh.primitives[place], built[place], ⟨index, mesh, built, indexed, found, ?_⟩,
    Option.mem_toList.mp carries⟩
  rw [List.mem_iff_getElem]
  exact ⟨place, by simp [inside, partnered], by simp⟩

/-- Every geometry of a mesh that is hung below a node is covered. -/
theorem yields_meshBlueprint
    (kept : Kept source registry)
    (node : Gltf.Node)
    {index : Nat}
    {mesh : Gltf.Mesh}
    (indexed : source.document.meshes[index]? = some mesh) :
    Yields source registry (meshBlueprint source node index mesh) fun blueprint after =>
      Covered source after blueprint.geometries := by
  apply yields_bind (yields_meshObjects kept indexed)
  intro built after advances found
  let used := built.map (usedObject source node mesh)
  have numbered : Yields source after (numberedUse source index used) fun objects _ =>
      objects.map (·.geometry) = used.map (·.geometry) :=
    (aside_numberedUse index used).yields advances.kept fun _ => geometry_numberedUse index used
  apply yields_bind numbered
  intro objects last further same
  apply yields_pure further.kept
  have unchanged : used.map (·.geometry) = built.map (·.geometry) := by
    simp only [used, List.map_map]
    rfl
  rw [Blueprint.geometries_bundle, Blueprint.geometriesOfAll_leaves, same, unchanged]
  exact (advances.kept.covered found).mono further

/-- What stands for the mesh of a node, if it has one. -/
def drawnMesh (source : Source) (node : Gltf.Node) : Building (List Blueprint) :=
  match node.mesh.bind fun index => (source.document.meshes[index]?).map (index, ·) with
  | some (index, mesh) => return [← meshBlueprint source node index mesh]
  | none => pure []

/-- What stands for the camera of a node, if it has one. -/
def placedCamera (source : Source) (node : Gltf.Node) : Building (List Blueprint) :=
  match node.camera.bind fun index => source.document.cameras[index]? with
  | some camera => return [.leaf (← cameraObject camera)]
  | none => pure []

/-- What stands for the light of a node, if it has one. -/
def placedLight (source : Source) (node : Gltf.Node) : Building (List Blueprint) :=
  match node.light.bind fun index => (source.document.light? index).map (index, ·) with
  | some (index, light) => return [.leaf (← lightObject index light)]
  | none => pure []

/-- A node carries the mesh it draws, then its camera, then its light. -/
theorem carried_eq (node : Gltf.Node) :
    carried source node = do
      let meshes ← drawnMesh source node
      let cameras ← placedCamera source node
      let lights ← placedLight source node
      return meshes ++ cameras ++ lights := by
  rw [carried, drawnMesh, placedCamera, placedLight]
  cases (node.mesh.bind fun index => (source.document.meshes[index]?).map (index, ·)) <;>
    cases (node.camera.bind fun index => source.document.cameras[index]?) <;>
    cases (node.light.bind fun index => (source.document.light? index).map (index, ·)) <;>
    rfl

/-- The mesh of a node brings covered geometries only. -/
theorem yields_drawnMesh
    (kept : Kept source registry)
    (node : Gltf.Node) :
    Yields source registry (drawnMesh source node) fun blueprints after =>
      Covered source after (Blueprint.geometriesOfAll blueprints) := by
  rw [drawnMesh]
  split
  next index mesh chosen =>
    obtain ⟨place, _, placed⟩ := Option.bind_eq_some_iff.mp chosen
    obtain ⟨found, indexed, same⟩ := Option.map_eq_some_iff.mp placed
    cases same
    apply yields_bind (yields_meshBlueprint kept node indexed)
    intro blueprint after advances covered
    apply yields_pure advances.kept
    rw [Blueprint.geometriesOfAll, Blueprint.geometriesOfAll, List.append_nil]
    exact covered
  next => exact yields_pure kept covered_nil

/-- An object without a geometry brings none. -/
theorem yields_bare
    {step : Building Scene.Node}
    (aside : Aside step)
    (bare : ∀ before, (step.run before).1.geometry = none)
    (kept : Kept source registry) :
    Yields source registry (do return [Blueprint.leaf (← step)]) fun blueprints _ =>
      Blueprint.geometriesOfAll blueprints = [] := by
  have object : Yields source registry step fun object _ => object.geometry = none :=
    aside.yields kept bare
  apply yields_bind object
  intro object after advances nothing
  apply yields_pure advances.kept
  simp [Blueprint.geometriesOfAll, nothing]

/-- The camera of a node brings no geometry. -/
theorem yields_placedCamera
    (kept : Kept source registry)
    (node : Gltf.Node) :
    Yields source registry (placedCamera source node) fun blueprints _ =>
      Blueprint.geometriesOfAll blueprints = [] := by
  rw [placedCamera]
  split
  next camera _ =>
    exact yields_bare (aside_cameraObject camera) (fun _ => geometry_cameraObject camera) kept
  next => exact yields_pure kept rfl

/-- The light of a node brings no geometry. -/
theorem yields_placedLight
    (kept : Kept source registry)
    (node : Gltf.Node) :
    Yields source registry (placedLight source node) fun blueprints _ =>
      Blueprint.geometriesOfAll blueprints = [] := by
  rw [placedLight]
  split
  next index light _ => exact yields_bare (aside_lightObject index light) (fun _ => rfl) kept
  next => exact yields_pure kept rfl

/-- The geometries of what a node carries were built for primitives. -/
theorem yields_carried
    (kept : Kept source registry)
    (node : Gltf.Node) :
    Yields source registry (carried source node) fun blueprints after =>
      Covered source after (Blueprint.geometriesOfAll blueprints) := by
  rw [carried_eq]
  apply yields_bind (yields_drawnMesh kept node)
  intro meshes middle advances covered
  apply yields_bind (yields_placedCamera advances.kept node)
  intro cameras after further noCamera
  apply yields_bind (yields_placedLight further.kept node)
  intro lights last ending noLight
  apply yields_pure ending.kept
  rw [Blueprint.geometriesOfAll_append, Blueprint.geometriesOfAll_append, noCamera, noLight,
    List.append_nil, List.append_nil]
  exact covered.mono (further.trans ending)

/-- Blueprints that are covered one by one are covered together. -/
theorem covered_of_forall₂
    {items : List α}
    {blueprints : List Blueprint}
    (each :
      List.Forall₂ (fun _ blueprint => Covered source registry blueprint.geometries) items
        blueprints) :
    Covered source registry (Blueprint.geometriesOfAll blueprints) := by
  induction each with
  | nil => exact covered_nil
  | cons here _ ih => exact here.append ih

/-- What stands for several nodes. -/
theorem yields_forest
    {step : Nat → Building Blueprint}
    (each :
      ∀ index before, Kept source before →
        Yields source before (step index) fun blueprint after =>
          Covered source after blueprint.geometries)
    (kept : Kept source registry)
    (indices : List Nat) :
    Yields source registry (indices.mapM step) fun blueprints after =>
      Covered source after (Blueprint.geometriesOfAll blueprints) := by
  have stable : Stable source fun (blueprint : Blueprint) after =>
      Covered source after blueprint.geometries :=
    fun _ _ _ advances covered => covered.mono advances
  apply (yields_mapM (fun _ => stable) (fun index _ => each index) kept).imp
  intro blueprints after _ forest
  exact covered_of_forall₂ forest

/-- What stands for a node, before its children are known. -/
theorem yields_standIn
    (index : Nat)
    {children : Building (List Blueprint)}
    (below :
      ∀ before, Kept source before →
        Yields source before children fun blueprints after =>
          Covered source after (Blueprint.geometriesOfAll blueprints))
    (kept : Kept source registry)
    (node : Gltf.Node) :
    Yields source registry
      (do
        let name ← claimNodeName node
        let objects ← carried source node
        let children ← children
        return standIn index node name children (holder (isJoint source index) objects))
      fun blueprint after => Covered source after blueprint.geometries := by
  apply yields_bind ((aside_claimNodeName node).advances kept)
  intro name named advances _
  apply yields_bind (yields_carried advances.kept node)
  intro objects after further own
  apply yields_bind (below after further.kept)
  intro blueprints last grown covered
  apply yields_pure grown.kept
  rw [Blueprint.geometries_standIn, Blueprint.geometries_holder]
  exact (own.mono grown).append covered

/-- The geometries of what stands for a node were built for primitives. -/
theorem yields_blueprintOf
    (levels index : Nat)
    (kept : Kept source registry) :
    Yields source registry (blueprintOf source levels index) fun blueprint after =>
      Covered source after blueprint.geometries := by
  induction levels generalizing index registry with
  | zero =>
    rw [blueprintOf]
    exact yields_standIn index (fun _ kept => yields_pure kept covered_nil) kept _
  | succ fewer ih =>
    rw [blueprintOf]
    exact yields_standIn index
      (fun _ kept => yields_forest (fun index _ kept => ih index kept) kept _) kept _

/-- What the registry holds when the scene is assembled. -/
theorem yields_sceneBlueprints
    (source : Source)
    (scene : Gltf.Scene) :
    Yields source {} (sceneBlueprints source scene) fun blueprints after =>
      Covered source after (Blueprint.geometriesOfAll blueprints.2) := by
  apply yields_bind ((aside_claimSceneName scene).advances (kept_empty source))
  intro name named advances _
  apply yields_bind
    (yields_forest (fun index _ kept => yields_blueprintOf _ index kept) advances.kept _)
  intro blueprints after further covered
  exact yields_pure further.kept covered

end Blueprints

end SceneMarkup.Loading
