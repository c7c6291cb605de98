import SceneMarkup.Gltf.Animation
import SceneMarkup.Gltf.Material
import SceneMarkup.Gltf.Mesh
import SceneMarkup.Gltf.Node
import SceneMarkup.Gltf.Optics

namespace SceneMarkup.Gltf

open Json (Tree Record)

/-!
# Documents

A document is one table for each kind of thing; things refer to each other by
their places in the tables.
-/

/-- Everything that an asset says. -/
structure Document where
  /-- The extras of the asset as a whole. -/
  assetExtras : Tree
  /-- The scene to show first. -/
  scene : Option Nat
  requiredExtensions : List String
  accessors : Array Accessor
  animations : Array Animation
  buffers : Array Buffer
  views : Array View
  cameras : Array Camera
  images : Array Image
  /-- Absent when the asset does not speak of lights. -/
  lights : Option (Array Light)
  materials : Array Material
  meshes : Array Mesh
  nodes : Array Node
  textureSamplers : Array TextureSampler
  scenes : Array Scene
  skins : Array Skin
  textures : Array Texture
  deriving Repr

namespace Document

/-- Read the part that describes the asset; its version is any text. -/
def assetOfTree? (tree : Tree) : Option Tree := do
  let record ← Record.ofTree?
    ["copyright", "extensions", "extras", "generator", "minVersion", "version"] 6 tree
  let _ ← record.optional? "copyright" Tree.text?
  let _ ← record.optional? "generator" Tree.text?
  let _ ← record.optional? "minVersion" Tree.text?
  let _ ← record.required? "version" Tree.text?
  Additions.extrasAlone? record

/-- Read a table, which is empty when it is absent. -/
def table? (record : Record) (name : String) (read : Tree → Option α) : Option (Array α) :=
  (record.given? name [] (Tree.list? read)).map List.toArray

/-- The fields of a document, in order. -/
def fieldNames : List String :=
  ["accessors", "animations", "asset", "buffers", "bufferViews", "scene", "extensions", "extras",
    "extensionsUsed", "extensionsRequired", "cameras", "images", "materials", "meshes", "nodes",
    "samplers", "scenes", "skins", "textures"]

/-- Read a document. -/
def ofTree? (tree : Tree) : Option Document := do
  let record ← Record.ofTree? fieldNames 6 tree
  let additions ← Additions.ofRecord? record 1 [lightsName]
  let lights ← additions.extensions.known.optional? lightsName Light.listOfTree?
  let _ ← table? record "extensionsUsed" Tree.text?
  return {
    assetExtras := ← record.required? "asset" assetOfTree?
    scene := ← record.optional? "scene" word?
    requiredExtensions := ← record.given? "extensionsRequired" [] (Tree.list? Tree.text?)
    accessors := ← table? record "accessors" Accessor.ofTree?
    animations := ← table? record "animations" Animation.ofTree?
    buffers := ← table? record "buffers" Buffer.ofTree?
    views := ← table? record "bufferViews" View.ofTree?
    cameras := ← table? record "cameras" Camera.ofTree?
    images := ← table? record "images" Image.ofTree?
    lights := lights.map List.toArray
    materials := ← table? record "materials" Material.ofTree?
    meshes := ← table? record "meshes" Mesh.ofTree?
    nodes := ← table? record "nodes" Node.ofTree?
    textureSamplers := ← table? record "samplers" TextureSampler.ofTree?
    scenes := ← table? record "scenes" Scene.ofTree?
    skins := ← table? record "skins" Skin.ofTree?
    textures := ← table? record "textures" Texture.ofTree? }

/-- The light at a place. -/
def light? (document : Document) (index : Nat) : Option Light :=
  document.lights.bind fun lights => lights[index]?

/-- The scene to show: the chosen one, or else the first. -/
def shownScene? (document : Document) : Option Scene :=
  (document.scene.bind fun index => document.scenes[index]?).orElse fun _ => document.scenes[0]?

end Document

end SceneMarkup.Gltf
