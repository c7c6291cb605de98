import SceneMarkup.Proofs.Blocks
import SceneMarkup.Proofs.KeyOrder
import SceneMarkup.Proofs.Lengths

namespace SceneMarkup.Markup

open Scene Attributes

/-!
# Which parts of a transform are printed

A scale is compared with the default after each component is rounded.  Positions
and rotations are compared by their length, which is rounded as a whole: a vector
whose components all vanish can still have a length that does not, and is printed
although nothing is left of it.  Such a vector lies on no axis, and it does not
vanish at one more place.
-/

/-- Every component vanishes and the length does not. -/
def Grazes (v : Vector) (precision : UInt32) : Prop :=
  v.Vanishes precision ∧ ¬ v.IsShort precision

instance (v : Vector) (precision : UInt32) : Decidable (Grazes v precision) :=
  inferInstanceAs (Decidable (_ ∧ _))

/-- No component of a transform is infinite or no number. -/
def FiniteTransform (transform : Transform) : Prop :=
  transform.position.IsFinite ∧ transform.rotation.IsFinite ∧ transform.scale.IsFinite

instance (transform : Transform) : Decidable (FiniteTransform transform) :=
  inferInstanceAs (Decidable (_ ∧ _ ∧ _))

section Parts

variable {context : NodeContext} {transform : Transform} {attributes : Attributes}
  {key : AttributeKey}

/-- A part of the transform is printed where the transform is printed, and nowhere else. -/
theorem mem_keys_iff
    (printed : context.attributes transform = .ok attributes)
    (moves : key.isTransform = true) :
    key ∈ attributes.keys ↔
      key ∈ Attributes.keys (transformAttributes transform context.options.precision) := by
  rw [NodeContext.attributes_eq] at printed
  cases leadingPrinted : context.leadingBlock with
  | error fault =>
      rw [leadingPrinted] at printed
      cases printed
  | ok leading =>
      rw [leadingPrinted] at printed
      cases printed
      have still : ∀ {part : Attributes}, part.hasTransform = false → key ∉ part.keys := by
        intro part unmoved member
        obtain ⟨entry, listed, rfl⟩ := List.mem_map.mp member
        rw [key_of_still unmoved listed] at moves
        cases moves
      have before := still (context.hasTransform_leadingBlock leadingPrinted)
      have after := still context.hasTransform_dataBlock
      simp only [Attributes.keys, List.map_append, List.mem_append] at before after ⊢
      exact ⟨fun member => (member.resolve_right after).resolve_left before,
        fun member => .inl (.inr member)⟩

theorem mem_keys_given
    {condition : Bool}
    {entry : Attribute} :
    key ∈ Attributes.keys (given condition entry) ↔ condition = true ∧ key = entry.key := by
  cases condition with
  | true => simp [given, Attributes.keys]
  | false => simp [given, Attributes.keys]

/-- What is printed of a transform: two lengths and a scale are compared. -/
theorem mem_keys_transformAttributes
    (transform : Transform)
    (precision : UInt32) :
    let keys := Attributes.keys (transformAttributes transform precision)
    (.position ∈ keys ↔ ¬ transform.position.IsShort precision) ∧
      (.rotation ∈ keys ↔ ¬ transform.rotation.IsShort precision) ∧
      (.scale ∈ keys ↔ (transform.scale.rounded precision).agrees .one = false) := by
  have split : ∀ key : AttributeKey,
      key ∈ Attributes.keys (transformAttributes transform precision) ↔
        (differs transform.position.length precision 0.0 = true ∧ key = .position ∨
          differs transform.rotation.length precision 0.0 = true ∧ key = .rotation) ∨
          (!(transform.scale.rounded precision).agrees .one) = true ∧ key = .scale := by
    intro key
    unfold transformAttributes
    simp only [Attributes.keys, List.map_append, List.mem_append]
    exact or_congr (or_congr mem_keys_given mem_keys_given) mem_keys_given
  have short : ∀ v : Vector, differs v.length precision 0.0 = true ↔ ¬ v.IsShort precision := by
    intro v
    rw [differs, Bool.not_eq_true', ← Bool.not_eq_true]
    rfl
  refine ⟨?_, ?_, ?_⟩
  · simp [split, short]
  · simp [split, short]
  · simp [split]

/-- A length that does not vanish belongs to a vector that does not vanish, or grazes. -/
theorem not_isShort_iff
    {v : Vector}
    {precision : UInt32}
    (finite : v.IsFinite)
    (within : precision.toNat ≤ 22) :
    ¬ v.IsShort precision ↔ ¬ v.Vanishes precision ∨ Grazes v precision := by
  constructor
  · intro long
    by_cases vanishes : v.Vanishes precision
    · exact .inr ⟨vanishes, long⟩
    · exact .inl vanishes
  · rintro (some | ⟨_, long⟩)
    · exact fun short => some (Vector.vanishes_of_isShort finite within short)
    · exact long

end Parts

/--
Of a finite transform, at fifteen places at most, the scale is printed exactly if a
rounded component is not one; the position is printed exactly if a rounded component
is not zero or the position grazes, and so is the rotation.  What grazes has two
components that are not zero, and a component that is left at one more place.
-/
theorem printed_parts
    {context : NodeContext}
    {transform : Transform}
    {attributes : Attributes}
    (printed : context.attributes transform = .ok attributes)
    (finite : FiniteTransform transform)
    (within : context.options.precision ≤ 15) :
    let precision := context.options.precision
    (.position ∈ attributes.keys ↔
        ¬ transform.position.Vanishes precision ∨ Grazes transform.position precision) ∧
      (.rotation ∈ attributes.keys ↔
        ¬ transform.rotation.Vanishes precision ∨ Grazes transform.rotation precision) ∧
      (.scale ∈ attributes.keys ↔ (transform.scale.rounded precision).agrees .one = false) ∧
      ∀ v : Vector, v.IsFinite → Grazes v precision →
        ¬ v.OnAxis ∧ ¬ v.Vanishes (precision + 1) := by
  intro precision
  have places : precision.toNat ≤ 15 := UInt32.le_iff_toNat_le.mp within
  obtain ⟨finitePosition, finiteRotation, _⟩ := finite
  obtain ⟨position, rotation, scale⟩ := mem_keys_transformAttributes transform precision
  refine ⟨?_, ?_, ?_, ?_⟩
  · rw [mem_keys_iff printed rfl, position, not_isShort_iff finitePosition (by omega)]
  · rw [mem_keys_iff printed rfl, rotation, not_isShort_iff finiteRotation (by omega)]
  · rw [mem_keys_iff printed rfl, scale]
  · rintro v finiteVector ⟨vanishes, long⟩
    exact ⟨fun axis => long (Vector.isShort_of_onAxis finiteVector (by omega) vanishes axis),
      fun next => long (Vector.isShort_of_vanishes_next finiteVector (by omega) next)⟩

/-- A group that stands a little aside in two directions. -/
def nudged : Node :=
  { name := "Nudged"
    kind := .group
    transform := { Transform.identity with position := ⟨0.004, 0.004, 0.0⟩ } }

/-- The group is moved by less than half a hundredth on each axis, and by more in all. -/
theorem printed_parts_nudged :
    let context : NodeContext := ⟨nudged, "Nudged", "nodes.Nudged", false, "", {}⟩
    ∃ attributes,
      context.attributes nudged.transform = .ok attributes ∧
        context.options.precision = 2 ∧
        Grazes nudged.transform.position 2 ∧
        .position ∈ attributes.keys ∧
        ¬ nudged.transform.position.OnAxis ∧
        ¬ nudged.transform.position.Vanishes 3 := by
  intro context
  have grazes : Grazes nudged.transform.position 2 := by decide +kernel
  cases printed : context.attributes nudged.transform with
  | error fault =>
      have succeeds : (context.attributes nudged.transform).toOption.isSome = true := by
        decide +kernel
      rw [printed] at succeeds
      cases succeeds
  | ok attributes =>
      obtain ⟨position, _, _, shell⟩ := printed_parts printed (by decide +kernel) (by decide)
      exact ⟨attributes, rfl, rfl, grazes, position.mpr (.inr grazes),
        shell nudged.transform.position (by decide +kernel) grazes⟩

/-- A position is printed although each of its rounded components is zero. -/
theorem nothing_is_printed_as_position :
    let context : NodeContext := ⟨nudged, "Nudged", "nodes.Nudged", false, "", {}⟩
    nudged.transform.position.Vanishes context.options.precision ∧
      (context.attributes nudged.transform).toOption.map Attributes.written =
        some "position=\x7b[0, 0, 0]\x7d" := by
  decide +kernel

end SceneMarkup.Markup
