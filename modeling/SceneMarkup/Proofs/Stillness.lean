import SceneMarkup.Markup.NodeAttributes
import SceneMarkup.Proofs.Doubles
import SceneMarkup.Proofs.WorldPlacement

namespace SceneMarkup.Scene

open Decimal Markup

/-!
# What prints nothing is at rest

Numbers are compared after rounding, and positions and rotations by their length.
A transform that prints nothing is at rest if rounding leaves its numbers alone
and no length that is rounded to zero hides a vector that is not zero.  The second
fails only for vectors so short that their squares vanish.
-/

/-- Rounding leaves the components alone. -/
def Vector.isExact (v : Vector) (precision : UInt32) : Bool :=
  Float.beq (roundTo v.x precision) v.x && Float.beq (roundTo v.y precision) v.y
    && Float.beq (roundTo v.z precision) v.z

/-- A vector that is not zero has a length that is not rounded to zero. -/
def Vector.isLegible (v : Vector) (precision : UInt32) : Bool :=
  differs v.length precision 0.0 || v.agrees .zero

namespace Transform

/-- Rounding leaves position, rotation and scale alone. -/
def isExact (transform : Transform) (precision : UInt32) : Bool :=
  transform.position.isExact precision && transform.rotation.isExact precision
    && transform.scale.isExact precision

/-- The lengths that are compared with zero tell whether the transform moves and turns. -/
def isLegible (transform : Transform) (precision : UInt32) : Bool :=
  transform.position.isLegible precision && transform.rotation.isLegible precision

/-- The transform without its rotation. -/
def unturned (transform : Transform) : Transform :=
  { transform with rotation := .zero }

end Transform

/-- Rounding leaves every transform of the scene alone. -/
def SceneGraph.IsExact (graph : SceneGraph) (precision : UInt32) : Prop :=
  ∀ id < graph.size, (graph.node id).transform.isExact precision = true

/-- Every transform of the scene is legible. -/
def SceneGraph.IsLegible (graph : SceneGraph) (precision : UInt32) : Prop :=
  ∀ id < graph.size, (graph.node id).transform.isLegible precision = true

instance (graph : SceneGraph) (precision : UInt32) : Decidable (graph.IsExact precision) :=
  inferInstanceAs (Decidable (∀ id < graph.size, _))

instance (graph : SceneGraph) (precision : UInt32) : Decidable (graph.IsLegible precision) :=
  inferInstanceAs (Decidable (∀ id < graph.size, _))

theorem Vector.zero_agrees_zero :
    Vector.zero.agrees .zero = true := by
  decide

section Printed

variable {transform : Transform} {precision : UInt32}

/-- A transform prints nothing exactly if each of its parts rounds to the default. -/
theorem transformAttributes_eq_nil_iff :
    transformAttributes transform precision = [] ↔
      differs transform.position.length precision 0.0 = false ∧
        differs transform.rotation.length precision 0.0 = false ∧
        (transform.scale.map fun x => roundTo x precision).agrees .one = true := by
  simp only [transformAttributes]
  cases differs transform.position.length precision 0.0 <;>
    cases differs transform.rotation.length precision 0.0 <;>
      cases (transform.scale.map fun x => roundTo x precision).agrees .one <;>
        simp [given]

/-- A transform prints its rotation alone exactly if the other parts round to the default. -/
theorem isOnly_rotation_iff :
    (transformAttributes transform precision).isOnly .rotation = true ↔
      differs transform.position.length precision 0.0 = false ∧
        differs transform.rotation.length precision 0.0 = true ∧
        (transform.scale.map fun x => roundTo x precision).agrees .one = true := by
  simp only [transformAttributes]
  cases differs transform.position.length precision 0.0 <;>
    cases differs transform.rotation.length precision 0.0 <;>
      cases (transform.scale.map fun x => roundTo x precision).agrees .one <;>
        simp [given, Attributes.isOnly, Attribute.expression]

/-- A legible vector of no length is zero. -/
theorem Vector.agrees_zero_of_isLegible
    {v : Vector}
    (legible : v.isLegible precision = true)
    (short : differs v.length precision 0.0 = false) :
    v.agrees .zero = true := by
  rwa [isLegible, short, Bool.false_or] at legible

/-- An exact vector that rounds to one is one. -/
theorem Vector.agrees_one_of_isExact
    {v : Vector}
    (exact : v.isExact precision = true)
    (rounded : (v.map fun x => roundTo x precision).agrees .one = true) :
    v.agrees .one = true := by
  simp only [isExact, Bool.and_eq_true] at exact
  simp only [agrees, map, Bool.and_eq_true] at rounded ⊢
  exact ⟨⟨beq_of_common exact.1.1 rounded.1.1, beq_of_common exact.1.2 rounded.1.2⟩,
    beq_of_common exact.2 rounded.2⟩

/-- Where rounding leaves some vector alone, the length of zero is not printed. -/
theorem differs_zero_of_isExact
    {v : Vector}
    (exact : v.isExact precision = true) :
    differs 0.0 precision 0.0 = false := by
  simp only [Vector.isExact, Bool.and_eq_true] at exact
  rw [differs, roundTo_zero exact.1.1 rfl]
  rfl

/-- What prints nothing is at rest. -/
theorem Interpretation.motion_of_printsNothing
    {M : Type u}
    [Monoid M]
    (reading : Interpretation M)
    (exact : transform.isExact precision = true)
    (legible : transform.isLegible precision = true)
    (nothing : transformAttributes transform precision = []) :
    reading.motion transform = 1 := by
  obtain ⟨position, rotation, scale⟩ := transformAttributes_eq_nil_iff.mp nothing
  simp only [Transform.isExact, Transform.isLegible, Bool.and_eq_true] at exact legible
  exact reading.motion_rest (Vector.agrees_zero_of_isLegible legible.1 position)
    (Vector.agrees_zero_of_isLegible legible.2 rotation)
    (Vector.agrees_one_of_isExact exact.2 scale)

/-- What prints a rotation only is that rotation. -/
theorem Interpretation.motion_of_turning
    {M : Type u}
    [Monoid M]
    (reading : Interpretation M)
    (exact : transform.isExact precision = true)
    (legible : transform.isLegible precision = true)
    (turning : (transformAttributes transform precision).isOnly .rotation = true) :
    reading.motion transform = reading.turn transform.rotation := by
  obtain ⟨position, _, scale⟩ := isOnly_rotation_iff.mp turning
  simp only [Transform.isExact, Transform.isLegible, Bool.and_eq_true] at exact legible
  rw [motion, reading.shift_rest _ (Vector.agrees_zero_of_isLegible legible.1 position),
    reading.stretch_rest _ (Vector.agrees_one_of_isExact exact.2 scale), one_mul, mul_one]

/-- Taking the rotation away keeps a transform exact. -/
theorem Transform.isExact_unturned
    (exact : transform.isExact precision = true) :
    transform.unturned.isExact precision = true := by
  simp only [isExact, Bool.and_eq_true] at exact ⊢
  have known := exact.1.1
  simp only [Vector.isExact, Bool.and_eq_true] at known
  have stays : Float.beq (roundTo 0.0 precision) 0.0 = true :=
    roundTo_zero known.1.1 (by decide)
  have zero : Vector.zero.isExact precision = true := by
    simp [Vector.isExact, Vector.zero, stays]
  exact ⟨⟨exact.1.1, zero⟩, exact.2⟩

/-- Taking the rotation away keeps a transform legible. -/
theorem Transform.isLegible_unturned
    (legible : transform.isLegible precision = true) :
    transform.unturned.isLegible precision = true := by
  simp only [isLegible, Bool.and_eq_true] at legible ⊢
  have zero : Vector.zero.isLegible precision = true := by
    rw [Vector.isLegible, Vector.zero_agrees_zero, Bool.or_true]
  exact ⟨legible.1, zero⟩

/-- Without its rotation, a transform that only rotates prints nothing. -/
theorem Transform.unturned_printsNothing
    (exact : transform.isExact precision = true)
    (turning : (transformAttributes transform precision).isOnly .rotation = true) :
    transformAttributes transform.unturned precision = [] := by
  obtain ⟨position, _, scale⟩ := isOnly_rotation_iff.mp turning
  simp only [isExact, Bool.and_eq_true] at exact
  refine transformAttributes_eq_nil_iff.mpr ⟨position, ?_, scale⟩
  rw [unturned, length_of_agrees_zero Vector.zero_agrees_zero]
  exact differs_zero_of_isExact exact.1.1

/-- A rotation that is printed is not zero. -/
theorem Transform.rotation_not_zero
    (exact : transform.isExact precision = true)
    (turning : (transformAttributes transform precision).isOnly .rotation = true) :
    transform.rotation.agrees .zero = false := by
  rw [← Bool.not_eq_true]
  intro rest
  obtain ⟨_, rotation, _⟩ := isOnly_rotation_iff.mp turning
  simp only [isExact, Bool.and_eq_true] at exact
  rw [length_of_agrees_zero rest, differs_zero_of_isExact exact.1.1] at rotation
  cases rotation

/-- A rotation that is opposite to none after rounding is zero. -/
theorem Vector.agrees_zero_of_opposite
    {v : Vector}
    (exact : v.isExact precision = true)
    (opposite :
      (v.map fun x => roundTo x precision).agrees
        ((Vector.zero.map fun x => -x).map fun x => roundTo x precision) = true) :
    v.agrees .zero = true := by
  simp only [isExact, Bool.and_eq_true] at exact
  simp only [agrees, map, Bool.and_eq_true] at opposite ⊢
  have none : Float.beq (roundTo (-Vector.zero.x) precision) 0.0 = true :=
    roundTo_zero exact.1.1 (by decide)
  have back :
      ∀ {x : Float}, Float.beq (roundTo x precision) x = true →
        Float.beq (roundTo x precision) (roundTo (-Vector.zero.x) precision) = true →
          Float.beq x 0.0 = true :=
    fun kept meets => beq_of_common (beq_of_common meets kept) none
  exact ⟨⟨back exact.1.1 opposite.1.1, back exact.1.2 opposite.1.2⟩,
    back exact.2 opposite.2⟩

end Printed

end SceneMarkup.Scene
