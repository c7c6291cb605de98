import Mathlib.Algebra.GroupWithZero.Nat
import Mathlib.Order.Bounds.Defs
import SceneMarkup.Proofs.Construction
import SceneMarkup.Proofs.MergedDrawings

namespace SceneMarkup.Loading

open Files (FileTree Path)
open Gltf (Document Primitive TextureUse)
open Scene (SceneGraph Ingredient Fingerprint MaterialId MaterialKind)

/-!
# Merged materials

Every material of a loaded scene was made for a definition of the document, and
its fingerprint tells the definition up to how textures are used: which set of
coordinates, and with what scale or strength.  So materials that are merged look
the same where those uses are the same.  A sample shows that nothing else keeps
apart two materials that differ in them.
-/

section Definitions

/-- The definition that an index names; without an index it is the default one. -/
def definitionAt (document : Document) (index : Option Nat) : Gltf.Material :=
  (index.bind fun place => document.materials[place]?).getD .absent

/-- What is entered for a definition and a family. -/
def materialEntry (source : Source) (key : MaterialKey) : MaterialKey × Scene.Material :=
  let definition := definitionAt source.document key.index
  (key,
    { name := definition.name.getD ""
      kind := key.kind
      fingerprint := source.contents.map fun _ => materialFingerprint definition key.kind })

/-- A material of the graph was made for a definition, to be drawn as one of a family. -/
structure MadeFor
    (source : Source)
    (scene : Gltf.Scene)
    (id : MaterialId)
    (kind : MaterialKind)
    (definition : Gltf.Material) :
    Prop where
  entered :
    ∃ key, (registryOf source scene).materials[id]? = some (materialEntry source key) ∧
      key.kind = kind ∧ definitionAt source.document key.index = definition
  family : ∃ mode, kind = materialKind mode definition

/-- The slots for textures. -/
def textureSlots (material : Gltf.Material) : List (Option TextureUse) :=
  [material.baseColorTexture, material.metallicRoughnessTexture, material.normalTexture,
    material.occlusionTexture, material.emissiveTexture]

/-- Two definitions agree on everything but their names and how they use textures. -/
structure SameSurface (first second : Gltf.Material) : Prop where
  baseColor : first.baseColor = second.baseColor
  metallic : first.metallic = second.metallic
  roughness : first.roughness = second.roughness
  emissive : first.emissive = second.emissive
  doubleSided : first.doubleSided = second.doubleSided
  alphaMode : first.alphaMode = second.alphaMode
  alphaCutoff : first.alphaCutoff = second.alphaCutoff
  textures :
    (textureSlots first).map (Option.map TextureUse.texture) =
      (textureSlots second).map (Option.map TextureUse.texture)

/-- Where two definitions have one texture in a slot, they use it the same way. -/
def UsedAlike (first second : Gltf.Material) : Prop :=
  ∀ (slot : Nat) (left right : TextureUse),
    (textureSlots first)[slot]? = some (some left) →
      (textureSlots second)[slot]? = some (some right) →
        left.texture = right.texture → left = right

/-- Surfaces that are the same and use textures alike have the same slots. -/
theorem SameSurface.textureSlots_eq
    {first second : Gltf.Material}
    (same : SameSurface first second)
    (alike : UsedAlike first second) :
    textureSlots first = textureSlots second := by
  apply List.ext_getElem?
  intro slot
  have textures := congrArg (·[slot]?) same.textures
  simp only [List.getElem?_map] at textures
  rcases left : (textureSlots first)[slot]? with _ | (_ | use) <;>
    rcases right : (textureSlots second)[slot]? with _ | (_ | other) <;>
    simp only [left, right, Option.map_none, Option.map_some, Option.some.injEq,
      reduceCtorEq] at textures
  · rfl
  · rfl
  · rw [alike slot use other left right textures]

end Definitions

section Telling

/-- A number that may be absent and what follows it are known by their ingredients. -/
theorem optionalIngredients_append_inj
    {first second : Option Nat}
    {left right : List Ingredient}
    (same : optionalIngredients first ++ left = optionalIngredients second ++ right) :
    first = second ∧ left = right := by
  cases first <;> cases second <;> simp [optionalIngredients] at same ⊢ <;> exact same

/-- Different alpha modes have different codes. -/
theorem alphaCode_injective :
    Function.Injective alphaCode := by
  intro first second same
  rcases first with _ | (_ | _ | _) <;> rcases second with _ | (_ | _ | _) <;> first
    | rfl
    | cases same

/-- Different singles have different bits. -/
theorem singleBits_injective :
    Function.Injective fun value : Float32 => value.toBits.toNat := by
  intro first second same
  have bits : first.toBits = second.toBits := UInt32.toNat_inj.mp same
  rcases first with ⟨⟨first, _⟩⟩
  rcases second with ⟨⟨second, _⟩⟩
  cases bits
  rfl

/-- Definitions with one fingerprint have the same surface. -/
theorem sameSurface_of_fingerprint
    {first second : Gltf.Material}
    {kind : MaterialKind}
    (same : materialFingerprint first kind = materialFingerprint second kind) :
    SameSurface first second := by
  have single {left right : Float32} (bits : left.toBits.toNat = right.toBits.toNat) :
      left = right :=
    singleBits_injective bits
  simp only [materialFingerprint, Gltf.Quadruple.toList, Gltf.Triple.toList, List.map_cons,
    List.map_nil, List.cons_append, List.nil_append, List.append_assoc, List.cons.injEq,
    Ingredient.word.injEq, true_and] at same
  obtain ⟨red, green, blue, alpha, metallic, roughness, glowRed, glowGreen, glowBlue, sides, mode,
    rest⟩ := same
  obtain ⟨cutoff, rest⟩ := optionalIngredients_append_inj rest
  obtain ⟨baseColor, rest⟩ := optionalIngredients_append_inj rest
  obtain ⟨metal, rest⟩ := optionalIngredients_append_inj rest
  obtain ⟨normal, rest⟩ := optionalIngredients_append_inj rest
  obtain ⟨occlusion, rest⟩ := optionalIngredients_append_inj rest
  obtain ⟨glow, _⟩ := optionalIngredients_append_inj (congrArg (· ++ []) rest)
  constructor
  case baseColor =>
    calc first.baseColor = ⟨first.baseColor.x, first.baseColor.y, first.baseColor.z,
        first.baseColor.w⟩ := rfl
      _ = second.baseColor := by rw [single red, single green, single blue, single alpha]
  case metallic => exact single metallic
  case roughness => exact single roughness
  case emissive =>
    calc first.emissive = ⟨first.emissive.x, first.emissive.y, first.emissive.z⟩ := rfl
      _ = second.emissive := by rw [single glowRed, single glowGreen, single glowBlue]
  case doubleSided => exact flagIngredient_inj sides
  case alphaMode => exact alphaCode_injective mode
  case alphaCutoff => exact Option.map_injective singleBits_injective cutoff
  case textures =>
    simp only [textureSlots, List.map_cons, List.map_nil]
    rw [baseColor, metal, normal, occlusion, glow]

end Telling

section Entries

/-- Every material was made for a definition and for one of the families it can be drawn as. -/
def MadeMaterials (source : Source) (registry : Registry) : Prop :=
  ∀ entry ∈ registry.materials,
    entry = materialEntry source entry.1 ∧
      ∃ mode, entry.1.kind = materialKind mode (definitionAt source.document entry.1.index)

theorem upheld_madeMaterials (source : Source) : Upheld source (MadeMaterials source) where
  name asked registry made := made
  geometry primitive registry made := made
  material primitive registry made := by
    intro entry member
    rcases Registry.mem_enter member with earlier | rfl
    · exact made entry earlier
    · exact ⟨rfl, _, rfl⟩
  meshes registry meshes made := made
  uses registry uses made := made

variable {source : Source} {scene : Gltf.Scene}

/-- The materials that a scene registers were made for definitions. -/
theorem madeMaterials_registryOf : MadeMaterials source (registryOf source scene) := by
  have empty : MadeMaterials source {} := fun entry member => by cases member
  have leads := (upheld_madeMaterials source).leads_sceneBlueprints scene
  exact (leads {} (stocked_empty empty)).1.known

/-- The materials of the graph are those that were registered, in order. -/
theorem materials_graphOf :
    (graphOf source scene).materials =
      ((registryOf source scene).materials.map (·.2)).toArray :=
  rfl

/-- Every material of the graph was made for a definition. -/
theorem exists_madeFor
    {id : MaterialId}
    (inside : id < (graphOf source scene).materials.size) :
    ∃ kind definition, MadeFor source scene id kind definition := by
  rw [materials_graphOf, List.size_toArray, List.length_map] at inside
  have found := List.getElem?_eq_getElem inside
  obtain ⟨entered, mode, family⟩ :=
    madeMaterials_registryOf _ (List.mem_of_getElem? found)
  rw [entered] at found
  exact ⟨_, _, ⟨_, found, rfl, rfl⟩, mode, family⟩

/-- What was made for a definition stands in the graph with its fingerprint. -/
theorem MadeFor.getElem?_materials
    {id : MaterialId}
    {kind : MaterialKind}
    {definition : Gltf.Material}
    (made : MadeFor source scene id kind definition) :
    (graphOf source scene).materials[id]? =
      some
        { name := definition.name.getD ""
          kind := kind
          fingerprint := source.contents.map fun _ => materialFingerprint definition kind } := by
  obtain ⟨key, found, rfl, rfl⟩ := made.entered
  rw [materials_graphOf, List.getElem?_toArray, List.getElem?_map, found]
  rfl

end Entries

section Merging

/-- What is lit evenly is told by its family, except for points and lines. -/
theorem unlit_of_kind
    {first second : Gltf.Material}
    {kind : MaterialKind}
    (firstFamily : ∃ mode, kind = materialKind mode first)
    (secondFamily : ∃ mode, kind = materialKind mode second)
    (surface : kind = .standard ∨ kind = .basic) :
    first.unlit = second.unlit := by
  obtain ⟨left, rfl⟩ := firstFamily
  obtain ⟨right, same⟩ := secondFamily
  cases left <;> cases right <;> cases lit : first.unlit <;> cases other : second.unlit <;>
    simp_all [materialKind]

variable {document : Document} {contents : Array ByteArray} {scene : Gltf.Scene}

/-- Materials that are merged were made for one family, and their definitions tell the same. -/
theorem MadeFor.alike
    {first second : MaterialId}
    (redirected :
      (graphOf ⟨document, some contents⟩ scene).materialClasses.redirect second = first)
    {firstKind secondKind : MaterialKind}
    {left right : Gltf.Material}
    (madeFirst : MadeFor ⟨document, some contents⟩ scene first firstKind left)
    (madeSecond : MadeFor ⟨document, some contents⟩ scene second secondKind right) :
    firstKind = secondKind ∧
      SameSurface left right ∧
      (firstKind = .standard ∨ firstKind = .basic → left.unlit = right.unlit) ∧
      (UsedAlike left right → textureSlots left = textureSlots right) := by
  have here : (graphOf ⟨document, some contents⟩ scene).materialContent second =
      some (secondKind, materialFingerprint right secondKind) :=
    Option.bind_eq_some_iff.mpr ⟨_, madeSecond.getElem?_materials, rfl⟩
  have there : (graphOf ⟨document, some contents⟩ scene).materialContent first =
      some (secondKind, materialFingerprint right secondKind) :=
    redirected ▸ (Scene.isLeast_redirect here).1
  have own : (graphOf ⟨document, some contents⟩ scene).materialContent first =
      some (firstKind, materialFingerprint left firstKind) :=
    Option.bind_eq_some_iff.mpr ⟨_, madeFirst.getElem?_materials, rfl⟩
  obtain ⟨rfl, fingerprints⟩ := Prod.mk.inj (Option.some.inj (own.symm.trans there))
  have surface := sameSurface_of_fingerprint fingerprints
  exact ⟨rfl, surface, unlit_of_kind madeFirst.family madeSecond.family,
    surface.textureSlots_eq⟩

/-- Materials that are merged were made for the same look, as far as textures are used alike. -/
theorem merged_materials_look_same
    {first second : MaterialId}
    (redirected :
      (graphOf ⟨document, some contents⟩ scene).materialClasses.redirect second = first)
    {firstKind secondKind : MaterialKind}
    {left right : Gltf.Material}
    (madeFirst : MadeFor ⟨document, some contents⟩ scene first firstKind left)
    (madeSecond : MadeFor ⟨document, some contents⟩ scene second secondKind right) :
    firstKind = secondKind ∧
      SameSurface left right ∧
      (firstKind = .standard ∨ firstKind = .basic → left.unlit = right.unlit) ∧
      (UsedAlike left right → textureSlots left = textureSlots right) :=
  madeFirst.alike redirected madeSecond

/--
When an asset has been loaded with its contents, every material and the one that it
is redirected to by merging were made for definitions of the document, which look
the same as far as textures are used alike.
-/
theorem merged_materials_of_load
    {tree : FileTree}
    {path : Path}
    {graph : SceneGraph}
    {reports : List Report}
    (done : load tree path true = .ok (graph, reports))
    {id : MaterialId}
    (inside : id < graph.materials.size) :
    ∃ document contents scene kind left right,
      graph = graphOf ⟨document, some contents⟩ scene ∧
        MadeFor ⟨document, some contents⟩ scene (graph.materialClasses.redirect id) kind left ∧
        MadeFor ⟨document, some contents⟩ scene id kind right ∧
        SameSurface left right ∧
        (UsedAlike left right → textureSlots left = textureSlots right) := by
  obtain ⟨document, contents, scene, _, rfl⟩ := complete_of_load done
  obtain ⟨kind, right, made⟩ := exists_madeFor inside
  have here : (graphOf ⟨document, some contents⟩ scene).materialContent id =
      some (kind, materialFingerprint right kind) :=
    Option.bind_eq_some_iff.mpr ⟨_, made.getElem?_materials, rfl⟩
  obtain ⟨_, left, madeFirst⟩ :=
    exists_madeFor (Scene.lt_size_of_contentAt (Scene.isLeast_redirect here).1)
  obtain ⟨rfl, surface, _, slots⟩ := madeFirst.alike rfl made
  exact ⟨document, contents, scene, _, left, right, rfl, madeFirst, made, surface, slots⟩

end Merging

namespace Swatches

/-- A use of a texture at full strength. -/
def plainUse (texture : Nat) : TextureUse :=
  ⟨texture, 0, TextureUse.full⟩

/-- One look under two names. -/
def twins : Gltf.Material × Gltf.Material :=
  ({ Gltf.Material.absent with name := some "Brass", baseColorTexture := some (plainUse 0) },
    { Gltf.Material.absent with name := some "Brass.001", baseColorTexture := some (plainUse 0) })

/-- One normal map at two scales. -/
def reliefs : Gltf.Material × Gltf.Material :=
  ({ Gltf.Material.absent with normalTexture := some (plainUse 0) },
    { Gltf.Material.absent with normalTexture := some { plainUse 0 with amount := 2.0 } })

/-- One occlusion map at two strengths. -/
def shades : Gltf.Material × Gltf.Material :=
  ({ Gltf.Material.absent with occlusionTexture := some (plainUse 0) },
    { Gltf.Material.absent with occlusionTexture := some { plainUse 0 with amount := 0.5 } })

/-- One texture through two sets of coordinates. -/
def layers : Gltf.Material × Gltf.Material :=
  ({ Gltf.Material.absent with emissiveTexture := some (plainUse 0) },
    { Gltf.Material.absent with emissiveTexture := some { plainUse 0 with coordinates := 1 } })

/-- The definitions of all pairs. -/
def definitions : List Gltf.Material :=
  [twins, reliefs, shades, layers].flatMap fun both => [both.1, both.2]

/-- A triangle in each material. -/
def primitives : List Primitive :=
  (List.range definitions.length).map fun index =>
    ⟨[(some .positions, 0)], none, some index, some .triangles, []⟩

/-- A document with one node, which draws all triangles. -/
def document : Document :=
  { Sample.document with
    images := #[⟨some 0⟩]
    textures := #[⟨none, 0⟩]
    materials := definitions.toArray
    meshes := #[⟨none, .null, primitives, none⟩] }

/-- The document with its contents. -/
def source : Source :=
  ⟨document, some Sample.contents⟩

theorem keys_registryOf :
    (registryOf source Sample.scene).materials.map (·.1) =
      (List.range definitions.length).map fun index => ⟨some index, .standard⟩ := by
  decide

/-- The material at a place was made for the definition at that place. -/
theorem madeFor_definition
    {id : MaterialId}
    {definition : Gltf.Material}
    (found : definitions[id]? = some definition)
    (lit : definition.unlit = false) :
    MadeFor source Sample.scene id .standard definition := by
  obtain ⟨inside, -⟩ := List.getElem?_eq_some_iff.mp found
  have key := congrArg (·[id]?) keys_registryOf
  simp only [List.getElem?_map, List.getElem?_range inside, Option.map_some,
    Option.map_eq_some_iff] at key
  obtain ⟨entry, listed, named⟩ := key
  have entered := (madeMaterials_registryOf entry (List.mem_of_getElem? listed)).1
  refine ⟨⟨entry.1, by rw [listed, ← entered], by rw [named], ?_⟩, .triangles, ?_⟩
  · simp [named, definitionAt, source, document, found]
  · simp [materialKind, lit]

/-- The second material of a pair is redirected to the first. -/
theorem redirections :
    (List.range definitions.length).map
      (graphOf source Sample.scene).materialClasses.redirect =
        [0, 0, 2, 2, 4, 4, 6, 6] := by
  decide +kernel

/-- Materials at two places are merged although they use their textures in different ways. -/
theorem merged_of_places
    (first second : MaterialId)
    (left right : Gltf.Material)
    (foundLeft : definitions[first]? = some left)
    (foundRight : definitions[second]? = some right)
    (lit : left.unlit = false ∧ right.unlit = false)
    (redirected :
      ((List.range definitions.length).map
        (graphOf source Sample.scene).materialClasses.redirect)[second]? = some first) :
    (graphOf source Sample.scene).materialClasses.redirect second = first ∧
      MadeFor source Sample.scene first .standard left ∧
      MadeFor source Sample.scene second .standard right := by
  refine ⟨?_, madeFor_definition foundLeft lit.1, madeFor_definition foundRight lit.2⟩
  obtain ⟨inside, -⟩ := List.getElem?_eq_some_iff.mp foundRight
  rw [List.getElem?_map, List.getElem?_range inside] at redirected
  exact Option.some.inj redirected

end Swatches

/-- Twins are merged, and they look the same. -/
theorem merged_materials_look_same_twins :
    (graphOf ⟨Swatches.document, some Sample.contents⟩ Sample.scene).materialClasses.redirect 1 = 0 ∧
      MadeFor ⟨Swatches.document, some Sample.contents⟩ Sample.scene 0 .standard
        Swatches.twins.1 ∧
      MadeFor ⟨Swatches.document, some Sample.contents⟩ Sample.scene 1 .standard
        Swatches.twins.2 ∧
      SameSurface Swatches.twins.1 Swatches.twins.2 ∧
      textureSlots Swatches.twins.1 = textureSlots Swatches.twins.2 := by
  obtain ⟨redirected, first, second⟩ :=
    Swatches.merged_of_places 0 1 Swatches.twins.1 Swatches.twins.2 rfl rfl ⟨rfl, rfl⟩
      (by rw [Swatches.redirections]; rfl)
  obtain ⟨-, surface, -, slots⟩ := merged_materials_look_same redirected first second
  refine ⟨redirected, first, second, surface, slots ?_⟩
  intro slot left right foundLeft foundRight _
  exact Option.some.inj (Option.some.inj (foundLeft.symm.trans foundRight))

/-- Another scale of a normal map does not keep materials apart. -/
theorem merged_reliefs_differ :
    (graphOf Swatches.source Sample.scene).materialClasses.redirect 3 = 2 ∧
      MadeFor Swatches.source Sample.scene 2 .standard Swatches.reliefs.1 ∧
      MadeFor Swatches.source Sample.scene 3 .standard Swatches.reliefs.2 ∧
      textureSlots Swatches.reliefs.1 ≠ textureSlots Swatches.reliefs.2 := by
  obtain ⟨redirected, first, second⟩ :=
    Swatches.merged_of_places 2 3 Swatches.reliefs.1 Swatches.reliefs.2 rfl rfl ⟨rfl, rfl⟩
      (by rw [Swatches.redirections]; rfl)
  refine ⟨redirected, first, second, fun same => ?_⟩
  have uses := congrArg (List.map (Option.map TextureUse.amount)) same
  exact absurd uses (by decide)

/-- Another strength of an occlusion map does not keep materials apart. -/
theorem merged_shades_differ :
    (graphOf Swatches.source Sample.scene).materialClasses.redirect 5 = 4 ∧
      MadeFor Swatches.source Sample.scene 4 .standard Swatches.shades.1 ∧
      MadeFor Swatches.source Sample.scene 5 .standard Swatches.shades.2 ∧
      textureSlots Swatches.shades.1 ≠ textureSlots Swatches.shades.2 := by
  obtain ⟨redirected, first, second⟩ :=
    Swatches.merged_of_places 4 5 Swatches.shades.1 Swatches.shades.2 rfl rfl ⟨rfl, rfl⟩
      (by rw [Swatches.redirections]; rfl)
  refine ⟨redirected, first, second, fun same => ?_⟩
  have uses := congrArg (List.map (Option.map TextureUse.amount)) same
  exact absurd uses (by decide)

/-- Another set of coordinates does not keep materials apart. -/
theorem merged_layers_differ :
    (graphOf Swatches.source Sample.scene).materialClasses.redirect 7 = 6 ∧
      MadeFor Swatches.source Sample.scene 6 .standard Swatches.layers.1 ∧
      MadeFor Swatches.source Sample.scene 7 .standard Swatches.layers.2 ∧
      textureSlots Swatches.layers.1 ≠ textureSlots Swatches.layers.2 := by
  obtain ⟨redirected, first, second⟩ :=
    Swatches.merged_of_places 6 7 Swatches.layers.1 Swatches.layers.2 rfl rfl ⟨rfl, rfl⟩
      (by rw [Swatches.redirections]; rfl)
  refine ⟨redirected, first, second, fun same => ?_⟩
  have uses := congrArg (List.map (Option.map TextureUse.coordinates)) same
  exact absurd uses (by decide)

end SceneMarkup.Loading
