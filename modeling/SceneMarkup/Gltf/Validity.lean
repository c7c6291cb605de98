import SceneMarkup.Gltf.Document

namespace SceneMarkup.Gltf

open Json (Value)

/-!
# Valid documents

A document is valid when every reference leads to a thing of the right table,
every code and name means something, and each thing has the parts that it
cannot do without.  The nodes that animations drive are not looked at.
-/

/-- Whether a reference leads into a table; no reference leads nowhere. -/
def leadsInto (table : Array α) (reference : Option Nat) : Bool :=
  reference.all fun index => index < table.size

/-- Whether all references lead into a table. -/
def allLeadInto (table : Array α) (references : List Nat) : Bool :=
  references.all fun index => index < table.size

namespace Document

/-- A view lies in a buffer, and its elements are at least four bytes apart and at most 252. -/
def isValidView (document : Document) (view : View) : Bool :=
  leadsInto document.buffers (some view.buffer)
    && view.byteStride.all (fun stride => 4 ≤ stride && stride ≤ 252)
    && view.target.all Option.isSome

/-- A substitution takes its positions and elements from views. -/
def isValidSparse (document : Document) (sparse : Sparse) : Bool :=
  leadsInto document.views (some sparse.positions.bufferView)
    && leadsInto document.views (some sparse.elements.bufferView)
    && sparse.positionType.isSome

/-- An accessor reads typed elements from a view, or from substitutions alone. -/
def isValidAccessor (document : Document) (accessor : Accessor) : Bool :=
  leadsInto document.views accessor.view
    && accessor.componentType.isSome
    && accessor.dimensions.isSome
    && accessor.sparse.all document.isValidSparse
    && (accessor.view.isSome || accessor.sparse.isSome)

/-- An animation reads its key frames from accessors. -/
def isValidAnimation (document : Document) (animation : Animation) : Bool :=
  animation.channels.all (fun channel => channel.sampler < animation.samplers.length)
    && animation.samplers.all fun sampler =>
      sampler.interpolation.isSome
        && allLeadInto document.accessors [sampler.input, sampler.output]

/-- A camera has a projection of its own. -/
def isValidCamera (camera : Camera) : Bool :=
  camera.cameraType.isSome && (camera.perspective.isSome || camera.orthographic.isSome)

/-- A spot light says that it has a cone. -/
def isValidLight (light : Light) : Bool :=
  light.lightType.isSome && (light.lightType != some .spot || light.cone.isSome)

/-- A material refers to textures. -/
def isValidMaterial (document : Document) (material : Material) : Bool :=
  allLeadInto document.textures (material.textureUses.map (·.texture))
    && material.alphaMode.isSome

/-- A bound of positions is a list of three numbers. -/
def isTriple : Option Value → Bool
  | some (.array [.number _, .number _, .number _]) => true
  | _ => false

/-- A primitive has positions, and their accessor has bounds. -/
def hasBoundedPositions (document : Document) (primitive : Primitive) : Bool :=
  match (primitive.accessor? .positions).bind fun index => document.accessors[index]? with
  | some accessor => isTriple accessor.least && isTriple accessor.greatest
  | none => false

/-- A primitive reads its vertices from accessors. -/
def isValidPrimitive (document : Document) (primitive : Primitive) : Bool :=
  primitive.attributes.all (fun attached => attached.1.isSome)
    && allLeadInto document.accessors (primitive.attributes.map (·.2))
    && leadsInto document.accessors primitive.indices
    && leadsInto document.materials primitive.material
    && primitive.mode.isSome
    && primitive.targets.all (fun target =>
      leadsInto document.accessors target.positions
        && leadsInto document.accessors target.normals
        && leadsInto document.accessors target.tangents)
    && document.hasBoundedPositions primitive

/-- A node refers to what it carries and to its children. -/
def isValidNode (document : Document) (node : Node) : Bool :=
  leadsInto document.cameras node.camera
    && leadsInto document.meshes node.mesh
    && leadsInto document.skins node.skin
    && leadsInto (document.lights.getD #[]) node.light
    && allLeadInto document.nodes node.children

/-- A skin refers to its joints. -/
def isValidSkin (document : Document) (skin : Skin) : Bool :=
  leadsInto document.accessors skin.inverseBindMatrices
    && allLeadInto document.nodes skin.joints
    && leadsInto document.nodes skin.skeleton

/-- The filters and the wrapping of a sampler mean something. -/
def isValidTextureSampler (sampler : TextureSampler) : Bool :=
  sampler.magnification.all Option.isSome
    && sampler.minification.all Option.isSome
    && sampler.wrapS.isSome
    && sampler.wrapT.isSome

/-- A texture refers to an image and a sampler. -/
def isValidTexture (document : Document) (texture : Texture) : Bool :=
  leadsInto document.textureSamplers texture.sampler
    && leadsInto document.images (some texture.source)

/-- The extensions that an asset may require. -/
def knownExtensions : List String :=
  [lightsName, Material.unlitName]

/-- Whether a document is valid. -/
def isValid (document : Document) : Bool :=
  leadsInto document.scenes document.scene
    && document.requiredExtensions.all knownExtensions.contains
    && document.accessors.all document.isValidAccessor
    && document.animations.all document.isValidAnimation
    && document.views.all document.isValidView
    && document.cameras.all isValidCamera
    && document.images.all (fun image => leadsInto document.views image.view)
    && (document.lights.getD #[]).all isValidLight
    && document.materials.all document.isValidMaterial
    && document.meshes.all (fun mesh => mesh.primitives.all document.isValidPrimitive)
    && document.nodes.all document.isValidNode
    && document.textureSamplers.all isValidTextureSampler
    && document.scenes.all (fun scene => allLeadInto document.nodes scene.nodes)
    && document.skins.all document.isValidSkin
    && document.textures.all document.isValidTexture

end Document

end SceneMarkup.Gltf
