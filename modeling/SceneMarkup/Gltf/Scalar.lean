import SceneMarkup.Json.Record

namespace SceneMarkup.Gltf

open Json (Tree)

/-!
# Scalars of an asset

Numbers of an asset are single precision; indices and codes have 32 bits.
-/

/-- An index or a code; of a larger number the lowest 32 bits count. -/
def word? (tree : Tree) : Option Nat :=
  tree.natural?.map (· % UInt32.size)

/-- The single nearest to a natural number of at most 64 bits. -/
def singleOfNat (value : Nat) : Float32 :=
  (UInt64.ofNat value).toFloat32

/-- A single: an integer is rounded once, any other number by way of a double. -/
def single? : Tree → Option Float32
  | .number literal =>
      literal.number?.map fun number =>
        match number with
        | .integer value =>
            if 0 ≤ value then singleOfNat value.toNat else -(singleOfNat value.natAbs)
        | .real value => value.toFloat32
  | _ => none

/-- Three singles. -/
structure Triple where
  x : Float32
  y : Float32
  z : Float32
  deriving Repr

/-- Four singles. -/
structure Quadruple where
  x : Float32
  y : Float32
  z : Float32
  w : Float32
  deriving Repr

namespace Triple

/-- Read three singles. -/
def ofTree? (tree : Tree) : Option Triple :=
  match tree.list? single? with
  | some [x, y, z] => some ⟨x, y, z⟩
  | _ => none

/-- The components in order. -/
def toList (triple : Triple) : List Float32 :=
  [triple.x, triple.y, triple.z]

end Triple

namespace Quadruple

/-- Read four singles. -/
def ofTree? (tree : Tree) : Option Quadruple :=
  match tree.list? single? with
  | some [x, y, z, w] => some ⟨x, y, z, w⟩
  | _ => none

/-- The components in order. -/
def toList (quadruple : Quadruple) : List Float32 :=
  [quadruple.x, quadruple.y, quadruple.z, quadruple.w]

end Quadruple

end SceneMarkup.Gltf
