import SceneMarkup.Gltf.Document
import SceneMarkup.Scene.Node

namespace SceneMarkup.Loading

open Gltf (Document Accessor Primitive TextureUse)
open Scene (Ingredient Fingerprint MaterialKind)

/-!
# Fingerprints

A fingerprint lists what a primitive or a material is made of, without its name
and without the places where the bytes stand.
-/

/-- A truth value as an ingredient. -/
def flagIngredient (flag : Bool) : Ingredient :=
  .word (if flag then 1 else 0)

/-- A text as ingredients; its end is marked. -/
def textIngredients (text : String) : List Ingredient :=
  [.bytes text.toUTF8.toList, .word 0xff]

/-- A number that may be absent. -/
def optionalIngredients : Option Nat → List Ingredient
  | none => [.word 0]
  | some value => [.word 1, .word value]

/-- Elements of `size` bytes from `start` on, `stride` apart, up to the first that is cut off. -/
def elements (bytes : ByteArray) (size stride : Nat) : Nat → Nat → List Ingredient
  | _, 0 => []
  | start, count + 1 =>
      if start + size ≤ bytes.size then
        .word size :: .bytes (bytes.extract start (start + size)).toList
          :: elements bytes size stride (start + stride) count
      else []

/-- The elements that an accessor reads, or its place when it reads none from a buffer. -/
def accessorElements (document : Document) (contents : Array ByteArray) (index : Nat)
    (accessor : Accessor) : List Ingredient :=
  let found := do
    let view ← document.views[← accessor.view]?
    return (view, ← contents[view.buffer]?)
  match found with
  | none => [.word index]
  | some (view, bytes) =>
      elements bytes accessor.size (view.byteStride.getD accessor.size)
        (view.byteOffset.getD 0 + accessor.byteOffset.getD 0) accessor.count

/-- What an accessor reads. -/
def accessorIngredients (document : Document) (contents : Array ByteArray) (index : Nat) :
    List Ingredient :=
  match document.accessors[index]? with
  | none => []
  | some accessor =>
      [.word accessor.count, .word accessor.size, flagIngredient accessor.normalized]
        ++ accessorElements document contents index accessor

/-- The code of a primitive's mode. -/
def modeCode (primitive : Primitive) : Nat :=
  (primitive.mode.getD .triangles).code

/-- What a primitive draws. -/
def primitiveFingerprint (document : Document) (contents : Array ByteArray)
    (primitive : Primitive) : Fingerprint :=
  let read := accessorIngredients document contents
  let attributes := primitive.labelled.flatMap fun attached =>
    textIngredients attached.1 ++ read attached.2
  let indices :=
    match primitive.indices with
    | some index => textIngredients "indices" ++ read index
    | none => []
  let targets := primitive.targets.flatMap fun target =>
    [target.positions, target.normals, target.tangents].flatMap fun index =>
      index.elim [] read
  .word (modeCode primitive) :: attributes ++ indices ++ targets

/-- The place of a family of materials among all families. -/
def kindCode : MaterialKind → Nat
  | .standard => 0
  | .basic => 1
  | .points => 2
  | .line => 3

/-- The place of a transparency mode among all modes. -/
def alphaCode : Option Gltf.AlphaMode → Nat
  | some .opaqueSurface => 0
  | some .mask => 1
  | some .blend => 2
  | none => 3

/-- How a material looks when it is drawn as one of a family. -/
def materialFingerprint (material : Gltf.Material) (kind : MaterialKind) : Fingerprint :=
  let single (value : Float32) : Ingredient := .word value.toBits.toNat
  let texture (use : Option TextureUse) : List Ingredient :=
    optionalIngredients (use.map (·.texture))
  .word (kindCode kind) :: material.baseColor.toList.map single
    ++ [single material.metallic, single material.roughness]
    ++ material.emissive.toList.map single
    ++ [flagIngredient material.doubleSided, .word (alphaCode material.alphaMode)]
    ++ optionalIngredients (material.alphaCutoff.map (·.toBits.toNat))
    ++ texture material.baseColorTexture
    ++ texture material.metallicRoughnessTexture
    ++ texture material.normalTexture
    ++ texture material.occlusionTexture
    ++ texture material.emissiveTexture

end SceneMarkup.Loading
