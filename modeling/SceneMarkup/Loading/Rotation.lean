import SceneMarkup.Gltf.Node
import SceneMarkup.Scene.Vector

namespace SceneMarkup.Loading

open Gltf (Triple Quadruple Placement)
open Scene (Vector Transform)

/-!
# Placements as transforms

A placement of an asset becomes a position, angles about the axes and a scale.
A matrix is taken apart in single precision; the angles are found in double
precision from the rotation matrix of the normalized quaternion.
-/

namespace Single

/-- Length of three singles. -/
def length (triple : Triple) : Float32 :=
  Float32.sqrt (triple.x * triple.x + triple.y * triple.y + triple.z * triple.z)

/-- Multiply every component. -/
def scaled (triple : Triple) (factor : Float32) : Triple :=
  ⟨triple.x * factor, triple.y * factor, triple.z * factor⟩

/-- One with the sign of the number; what is no number stays so. -/
def sign (value : Float32) : Float32 :=
  if value.isNaN then value else if value.toBits >>> 31 = 0 then 1.0 else -1.0

/-- The determinant of a matrix with the given columns. -/
def determinant (a b c : Triple) : Float32 :=
  a.x * (b.y * c.z - c.y * b.z) - b.x * (a.y * c.z - c.y * a.z) + c.x * (a.y * b.z - b.y * a.z)

/-- The quaternion of a rotation with the given columns, by way of its largest part. -/
def quaternion (a b c : Triple) : Quadruple :=
  let trace := a.x + b.y + c.z
  if trace ≥ 0.0 then
    let root := Float32.sqrt (1.0 + trace)
    let factor := 0.5 / root
    ⟨(b.z - c.y) * factor, (c.x - a.z) * factor, (a.y - b.x) * factor, 0.5 * root⟩
  else if a.x > b.y ∧ a.x > c.z then
    let root := Float32.sqrt ((a.x - b.y - c.z) + 1.0)
    let factor := 0.5 / root
    ⟨0.5 * root, (b.x + a.y) * factor, (a.z + c.x) * factor, (b.z - c.y) * factor⟩
  else if b.y > c.z then
    let root := Float32.sqrt ((b.y - a.x - c.z) + 1.0)
    let factor := 0.5 / root
    ⟨(b.x + a.y) * factor, 0.5 * root, (c.y + b.z) * factor, (c.x - a.z) * factor⟩
  else
    let root := Float32.sqrt ((c.z - a.x - b.y) + 1.0)
    let factor := 0.5 / root
    ⟨(a.z + c.x) * factor, (c.y + b.z) * factor, 0.5 * root, (a.y - b.x) * factor⟩

end Single

/-- Translation, rotation and scale of a placement. -/
def partsOf : Placement → Triple × Quadruple × Triple
  | .parts translation rotation scale => (translation, rotation, scale)
  | .matrix first second third fourth =>
      let a : Triple := ⟨first.x, first.y, first.z⟩
      let b : Triple := ⟨second.x, second.y, second.z⟩
      let c : Triple := ⟨third.x, third.y, third.z⟩
      let sx := Single.length a
      let sy := Single.length b
      let sz := Single.sign (Single.determinant a b c) * Single.length c
      let rotation := Single.quaternion (Single.scaled a (1.0 / sx)) (Single.scaled b (1.0 / sy))
        (Single.scaled c (1.0 / sz))
      (⟨fourth.x, fourth.y, fourth.z⟩, rotation, ⟨sx, sy, sz⟩)

/-- Three singles as doubles. -/
def widened (triple : Triple) : Vector :=
  ⟨triple.x.toFloat, triple.y.toFloat, triple.z.toFloat⟩

/-- Beyond this sine of the second angle the other two cannot be told apart. -/
def lockLimit : Float := 0.9999999

/-- Keep a number within one of zero. -/
def clampedToOne (value : Float) : Float :=
  if value < -1.0 then -1.0 else if value > 1.0 then 1.0 else value

/-- The angles about x, y and z whose rotations, applied in turn, make up a quaternion. -/
def angles (quaternion : Quadruple) : Vector :=
  let x := quaternion.x.toFloat
  let y := quaternion.y.toFloat
  let z := quaternion.z.toFloat
  let w := quaternion.w.toFloat
  let factor := 1.0 / Float.sqrt (x * x + y * y + z * z + w * w)
  let x := x * factor
  let y := y * factor
  let z := z * factor
  let w := w * factor
  let x2 := x + x
  let y2 := y + y
  let z2 := z + z
  let m11 := 1.0 - (y * y2 + z * z2)
  let m12 := x * y2 - w * z2
  let m13 := x * z2 + w * y2
  let m22 := 1.0 - (x * x2 + z * z2)
  let m23 := y * z2 - w * x2
  let m32 := y * z2 + w * x2
  let m33 := 1.0 - (x * x2 + y * y2)
  let second := Float.asin (clampedToOne m13)
  if m13.abs < lockLimit then ⟨Float.atan2 (-m23) m33, second, Float.atan2 (-m12) m11⟩
  else ⟨Float.atan2 m32 m22, second, 0.0⟩

/-- The transform of a placement. -/
def transformOf (placement : Placement) : Transform :=
  let (translation, rotation, scale) := partsOf placement
  ⟨widened translation, angles rotation, widened scale⟩

end SceneMarkup.Loading
