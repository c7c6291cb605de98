import SceneMarkup.Gltf.Accessor

namespace SceneMarkup.Gltf

open Json (Tree Record)

/-!
# Materials and textures

A material says how a surface looks; each of its textures refers to an image
through a sampler.
-/

/-- How the transparency of a material is used. -/
inductive AlphaMode
  | opaqueSurface
  | mask
  | blend
  deriving Repr, DecidableEq

/-- The mode with the given name. -/
def AlphaMode.ofName? (name : String) : Option AlphaMode :=
  match name with
  | "OPAQUE" => some .opaqueSurface
  | "MASK" => some .mask
  | "BLEND" => some .blend
  | _ => none

/-- A use of a texture: which one, through which coordinates, and how strongly. -/
structure TextureUse where
  texture : Nat
  coordinates : Nat
  /-- The scale of a normal map or the strength of an occlusion map. -/
  amount : Float32
  deriving Repr

/-- A material; everything but its name describes its look. -/
structure Material where
  name : Option String
  baseColor : Quadruple
  baseColorTexture : Option TextureUse
  metallic : Float32
  roughness : Float32
  metallicRoughnessTexture : Option TextureUse
  normalTexture : Option TextureUse
  occlusionTexture : Option TextureUse
  emissiveTexture : Option TextureUse
  emissive : Triple
  alphaMode : Option AlphaMode
  alphaCutoff : Option Float32
  doubleSided : Bool
  unlit : Bool
  deriving Repr

/-- An image, from a view or from a file. -/
structure Image where
  view : Option Nat
  deriving Repr

/-- How a texture is sampled; a code that means nothing is kept as `none`. -/
structure TextureSampler where
  magnification : Option (Option Nat)
  minification : Option (Option Nat)
  wrapS : Option Nat
  wrapT : Option Nat
  deriving Repr

/-- An image and the sampler it is read through. -/
structure Texture where
  sampler : Option Nat
  source : Nat
  deriving Repr

/-- Keep a code that is listed. -/
def listed? (codes : List Nat) (code : Nat) : Option Nat :=
  if codes.contains code then some code else none

namespace Image

/-- Read an image. -/
def ofTree? (tree : Tree) : Option Image := do
  let record ← Record.ofTree? ["bufferView", "mimeType", "name", "uri", "extensions", "extras"] 4 tree
  let _ ← record.optional? "mimeType" Tree.text?
  let _ ← record.optional? "name" Tree.text?
  let _ ← record.optional? "uri" Tree.text?
  let _ ← Additions.ofRecord? record 3 []
  return ⟨← record.optional? "bufferView" word?⟩

end Image

namespace TextureSampler

/-- Codes of the wrapping of coordinates; the last one is the default. -/
def wrappings : List Nat := [33071, 33648, 10497]

/-- Read a sampler. -/
def ofTree? (tree : Tree) : Option TextureSampler := do
  let record ← Record.ofTree?
    ["magFilter", "minFilter", "name", "wrapS", "wrapT", "extensions", "extras"] 0 tree
  let _ ← record.optional? "name" Tree.text?
  let _ ← Additions.ofRecord? record 3 []
  return {
    magnification := ← record.optional? "magFilter" (coded? (listed? [9728, 9729]))
    minification := ← record.optional? "minFilter"
      (coded? (listed? [9728, 9729, 9984, 9985, 9986, 9987]))
    wrapS := ← record.given? "wrapS" (some 10497) (coded? (listed? wrappings))
    wrapT := ← record.given? "wrapT" (some 10497) (coded? (listed? wrappings)) }

end TextureSampler

namespace Texture

/-- Read a texture. -/
def ofTree? (tree : Tree) : Option Texture := do
  let record ← Record.ofTree? ["name", "sampler", "source", "extensions", "extras"] 3 tree
  let _ ← record.optional? "name" Tree.text?
  let _ ← Additions.ofRecord? record 3 []
  return ⟨← record.optional? "sampler" word?, ← record.required? "source" word?⟩

end Texture

namespace TextureUse

/-- The number one as a single. -/
def full : Float32 := 1.0

/-- A natural number of at most 32 bits. -/
def coordinates? (tree : Tree) : Option Nat :=
  tree.natural?.bind fun value => if value < UInt32.size then some value else none

/-- Read a use of a texture; `amount` is the field for its scale or strength, if it has one. -/
def ofTree? (names : List String) (amount : Option String) (depth : Nat) (tree : Tree) :
    Option TextureUse := do
  let record ← Record.ofTree? names 1 tree
  let _ ← Additions.ofRecord? record depth []
  return {
    texture := ← record.required? "index" word?
    coordinates := ← record.given? "texCoord" 0 coordinates?
    amount := ←
      match amount with
      | some name => record.given? name full single?
      | none => some full }

/-- Read a use without scale or strength. -/
def plain? (depth : Nat) (tree : Tree) : Option TextureUse :=
  ofTree? ["index", "texCoord", "extensions", "extras"] none depth tree

/-- Read a use as a normal map. -/
def normal? (tree : Tree) : Option TextureUse :=
  ofTree? ["index", "scale", "texCoord", "extensions", "extras"] (some "scale") 4 tree

/-- Read a use as an occlusion map. -/
def occlusion? (tree : Tree) : Option TextureUse :=
  ofTree? ["index", "strength", "texCoord", "extensions", "extras"] (some "strength") 4 tree

end TextureUse

/-- The part of a material that describes its base color and its metal. -/
structure MetallicRoughness where
  baseColor : Quadruple := ⟨1.0, 1.0, 1.0, 1.0⟩
  baseColorTexture : Option TextureUse := none
  metallic : Float32 := 1.0
  roughness : Float32 := 1.0
  metallicRoughnessTexture : Option TextureUse := none
  deriving Repr

namespace MetallicRoughness

/-- Read that part. -/
def ofTree? (tree : Tree) : Option MetallicRoughness := do
  let record ← Record.ofTree?
    ["baseColorFactor", "baseColorTexture", "metallicFactor", "roughnessFactor",
      "metallicRoughnessTexture", "extensions", "extras"]
    0 tree
  let fresh : MetallicRoughness := {}
  let _ ← Additions.ofRecord? record 4 []
  return {
    baseColor := ← record.given? "baseColorFactor" fresh.baseColor Quadruple.ofTree?
    baseColorTexture := ← record.optional? "baseColorTexture" (TextureUse.plain? 5)
    metallic := ← record.given? "metallicFactor" fresh.metallic single?
    roughness := ← record.given? "roughnessFactor" fresh.roughness single?
    metallicRoughnessTexture := ←
      record.optional? "metallicRoughnessTexture" (TextureUse.plain? 5) }

end MetallicRoughness

namespace Material

/-- The material of a primitive that names none. -/
def absent : Material where
  name := none
  baseColor := ⟨1.0, 1.0, 1.0, 1.0⟩
  baseColorTexture := none
  metallic := 1.0
  roughness := 1.0
  metallicRoughnessTexture := none
  normalTexture := none
  occlusionTexture := none
  emissiveTexture := none
  emissive := ⟨0.0, 0.0, 0.0⟩
  alphaMode := some .opaqueSurface
  alphaCutoff := none
  doubleSided := false
  unlit := false

/-- The extension that draws a surface as if it were lit evenly. -/
def unlitName : String := "KHR_materials_unlit"

/-- Read a material. -/
def ofTree? (tree : Tree) : Option Material := do
  let record ← Record.ofTree?
    ["alphaCutoff", "alphaMode", "doubleSided", "name", "pbrMetallicRoughness", "normalTexture",
      "occlusionTexture", "emissiveTexture", "emissiveFactor", "extensions", "extras"]
    8 tree
  let additions ← Additions.ofRecord? record 3 [unlitName]
  let unlit ← additions.extensions.known.optional? unlitName (Record.ofTree? [] 0)
  let base ← record.given? "pbrMetallicRoughness" {} MetallicRoughness.ofTree?
  return {
    name := ← record.optional? "name" Tree.text?
    baseColor := base.baseColor
    baseColorTexture := base.baseColorTexture
    metallic := base.metallic
    roughness := base.roughness
    metallicRoughnessTexture := base.metallicRoughnessTexture
    normalTexture := ← record.optional? "normalTexture" TextureUse.normal?
    occlusionTexture := ← record.optional? "occlusionTexture" TextureUse.occlusion?
    emissiveTexture := ← record.optional? "emissiveTexture" (TextureUse.plain? 4)
    emissive := ← record.given? "emissiveFactor" ⟨0.0, 0.0, 0.0⟩ Triple.ofTree?
    alphaMode := ← record.given? "alphaMode" (some .opaqueSurface) (named? AlphaMode.ofName?)
    alphaCutoff := ← record.optional? "alphaCutoff" single?
    doubleSided := ← record.given? "doubleSided" false Tree.flag?
    unlit := unlit.isSome }

/-- All uses of textures. -/
def textureUses (material : Material) : List TextureUse :=
  [material.baseColorTexture, material.metallicRoughnessTexture, material.normalTexture,
    material.occlusionTexture, material.emissiveTexture].filterMap id

end Material

end SceneMarkup.Gltf
