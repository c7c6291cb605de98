import SceneMarkup.Gltf.Accessor

namespace SceneMarkup.Gltf

open Json (Tree Record)

/-!
# Nodes, scenes and skins

Nodes form trees by their lists of children; a scene lists the nodes on top, and
a skin lists the nodes that are the joints of a skeleton.
-/

/-- Where a node stands: a matrix, or a translation, a rotation and a scale. -/
inductive Placement
  /-- Four columns, each from top to bottom. -/
  | matrix (first second third fourth : Quadruple)
  /-- The rotation is a quaternion with its real part last. -/
  | parts (translation : Triple) (rotation : Quadruple) (scale : Triple)
  deriving Repr

/-- A node. -/
structure Node where
  name : Option String
  mesh : Option Nat
  camera : Option Nat
  light : Option Nat
  skin : Option Nat
  children : List Nat
  placement : Placement
  weights : Option (List Float32)
  extensions : Extensions
  extras : Tree
  deriving Repr

/-- A scene. -/
structure Scene where
  name : Option String
  nodes : List Nat
  extras : Tree
  deriving Repr

/-- A skin. -/
structure Skin where
  inverseBindMatrices : Option Nat
  joints : List Nat
  skeleton : Option Nat
  deriving Repr

namespace Placement

/-- Sixteen singles as four columns. -/
def ofSixteen? : List Float32 → Option Placement
  | [a, b, c, d, e, f, g, h, i, j, k, l, m, n, o, p] =>
      some (.matrix ⟨a, b, c, d⟩ ⟨e, f, g, h⟩ ⟨i, j, k, l⟩ ⟨m, n, o, p⟩)
  | _ => none

/-- Read the placement of a node; a matrix outweighs everything else. -/
def ofRecord? (record : Record) : Option Placement := do
  let matrix ← record.optional? "matrix" fun tree => (tree.list? single?).bind ofSixteen?
  let rotation ← record.optional? "rotation" Quadruple.ofTree?
  let scale ← record.optional? "scale" Triple.ofTree?
  let translation ← record.optional? "translation" Triple.ofTree?
  return matrix.getD
    (.parts (translation.getD ⟨0.0, 0.0, 0.0⟩) (rotation.getD ⟨0.0, 0.0, 0.0, 1.0⟩)
      (scale.getD ⟨1.0, 1.0, 1.0⟩))

end Placement

/-- The extension that brings lights. -/
def lightsName : String := "KHR_lights_punctual"

namespace Node

/-- A node that carries nothing and moves nothing. -/
def absent : Node where
  name := none
  mesh := none
  camera := none
  light := none
  skin := none
  children := []
  placement := .parts ⟨0.0, 0.0, 0.0⟩ ⟨0.0, 0.0, 0.0, 1.0⟩ ⟨1.0, 1.0, 1.0⟩
  weights := none
  extensions := .none
  extras := .null

/-- Read the light that a node carries. -/
def lightOfTree? (tree : Tree) : Option Nat := do
  let record ← Record.ofTree? ["light"] 1 tree
  record.required? "light" word?

/-- Read a node. -/
def ofTree? (tree : Tree) : Option Node := do
  let record ← Record.ofTree?
    ["camera", "children", "extensions", "extras", "matrix", "mesh", "name", "rotation", "scale",
      "translation", "skin", "weights"]
    12 tree
  let additions ← Additions.ofRecord? record 3 [lightsName]
  let children ← record.optional? "children" (Tree.list? word?)
  return {
    name := ← record.optional? "name" Tree.text?
    mesh := ← record.optional? "mesh" word?
    camera := ← record.optional? "camera" word?
    light := ← additions.extensions.known.optional? lightsName lightOfTree?
    skin := ← record.optional? "skin" word?
    children := children.getD []
    placement := ← Placement.ofRecord? record
    weights := ← record.optional? "weights" (Tree.list? single?)
    extensions := additions.extensions
    extras := additions.extras }

end Node

namespace Scene

/-- Read a scene. -/
def ofTree? (tree : Tree) : Option Scene := do
  let record ← Record.ofTree? ["extensions", "extras", "name", "nodes"] 4 tree
  let additions ← Additions.ofRecord? record 3 []
  return {
    name := ← record.optional? "name" Tree.text?
    nodes := ← record.required? "nodes" (Tree.list? word?)
    extras := additions.extras }

end Scene

namespace Skin

/-- Read a skin. -/
def ofTree? (tree : Tree) : Option Skin := do
  let record ← Record.ofTree?
    ["extensions", "extras", "inverseBindMatrices", "joints", "name", "skeleton"] 6 tree
  let _ ← record.optional? "name" Tree.text?
  let _ ← Additions.ofRecord? record 3 []
  return {
    inverseBindMatrices := ← record.optional? "inverseBindMatrices" word?
    joints := ← record.required? "joints" (Tree.list? word?)
    skeleton := ← record.optional? "skeleton" word? }

end Skin

end SceneMarkup.Gltf
