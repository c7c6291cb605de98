import SceneMarkup.Proofs.Constants

namespace SceneMarkup.Markup

open Scene

/-!
# What attributes say

The value of every attribute has one of few forms: it is constant, it reaches
something that the node itself carries, or it names a material.
-/

namespace NodeContext

/-- What can be reached through a node. -/
def ownProperties : List String :=
  [".geometry", ".material", ".skeleton", ".instanceMatrix", ".morphTargetDictionary",
    ".morphTargetInfluences"]

/-- The node carries something that can be reached through it only. -/
def RefersToItself (context : NodeContext) : Prop :=
  context.node.kind.isMesh = true ∨ context.node.geometry.isSome = true ∨
    context.node.morphTargets.isSome = true ∨
    context.node.material.isSome = true ∧ context.materialName.isEmpty = true

/-- The forms of the values that a node's attributes have. -/
inductive Tells (context : NodeContext) : AttributeValue → Prop
  | flag : Tells context .flag
  | text
      {content : String}
      (unquoted : '"' ∉ content.toList) :
      Tells context (.text content)
  | constant
      {content : String}
      (constant : Constant content.toList) :
      Tells context (.expression content)
  | property
      (refers : context.RefersToItself)
      {property : String}
      (listed : property ∈ ownProperties) :
      Tells context (.expression (context.expression ++ property))
  | arguments
      (refers : context.RefersToItself)
      (count : Nat) :
      Tells context
        (.expression
          (tripleText (context.expression ++ ".geometry") (context.expression ++ ".material")
            (toString count)))
  | material
      (used : context.node.material.isSome = true)
      (named : context.materialName.isEmpty = false) :
      Tells context (.expression ("materials" ++ Text.memberAccess context.materialName))

/-- All attributes have values of these forms. -/
def TellsAll (context : NodeContext) (attributes : Attributes) : Prop :=
  ∀ entry ∈ attributes, context.Tells entry.value

end NodeContext

section Blocks

variable {context : NodeContext}

theorem tells_append
    {first second : Attributes}
    (begins : context.TellsAll first)
    (ends : context.TellsAll second) :
    context.TellsAll (first ++ second) :=
  List.forall_mem_append.mpr ⟨begins, ends⟩

theorem tells_singleton
    {entry : Attribute}
    (told : context.Tells entry.value) :
    context.TellsAll [entry] :=
  List.forall_mem_singleton.mpr told

theorem tells_nil :
    context.TellsAll [] :=
  List.forall_mem_nil _

/-- An attribute under a condition tells what its value tells where the condition holds. -/
theorem tells_given
    {condition : Bool}
    {entry : Attribute}
    (told : condition = true → context.Tells entry.value) :
    context.TellsAll (given condition entry) := by
  cases condition with
  | true => exact tells_singleton (told rfl)
  | false => exact tells_nil

/-- A constant under a condition tells nothing of the node but the constant. -/
theorem tells_constant
    (condition : Bool)
    (key : AttributeKey)
    {content : String}
    (constant : Constant content.toList) :
    context.TellsAll (given condition (.expression key content)) :=
  tells_given fun _ => .constant constant

/-- A number that is left out at its default is a constant. -/
theorem tells_unlessDefault
    (key : AttributeKey)
    (x : Float)
    (precision : UInt32)
    (fallback : Float) :
    context.TellsAll (unlessDefault key x precision fallback) :=
  tells_constant _ key (constant_numberText _ _)

/-- A number that may be absent is a constant. -/
theorem tells_unlessAbsent
    (key : AttributeKey)
    (x : Option Float)
    (precision : UInt32)
    (fallback : Float) :
    context.TellsAll (unlessAbsent key x precision fallback) := by
  cases x with
  | none => exact tells_nil
  | some x => exact tells_unlessDefault key x precision fallback

/-- The settings of a camera are constants. -/
theorem tells_camera
    (camera : Camera)
    (precision : UInt32) :
    context.TellsAll (cameraAttributes camera precision) := by
  unfold cameraAttributes
  refine tells_append (tells_append (tells_append (tells_append ?_ ?_) ?_) ?_) ?_
  · exact tells_singleton (.constant (constant_of_signs (by decide)))
  · exact tells_unlessDefault _ _ _ _
  · exact tells_unlessDefault _ _ _ _
  · exact tells_unlessDefault _ _ _ _
  · split
    next => exact tells_unlessDefault _ _ _ _
    next => exact tells_nil

/-- The settings of a light are constants. -/
theorem tells_light
    (light : Light)
    (precision : UInt32) :
    context.TellsAll (lightAttributes light precision) := by
  unfold lightAttributes
  refine tells_append (tells_append (tells_append (tells_append ?_ ?_) ?_) ?_) ?_
  · exact tells_unlessDefault _ _ _ _
  · split
    next => exact tells_constant _ _ (constant_angleText _ _)
    next => exact tells_nil
  · exact tells_unlessAbsent _ _ _ _
  · exact tells_unlessAbsent _ _ _ _
  · exact tells_unlessAbsent _ _ _ _

/-- The channel of a color is written without a quote. -/
theorem quote_not_mem_channelText
    (x : Float) :
    '"' ∉ (channelText x).toList := by
  unfold channelText
  simp only [String.toList_ofList]
  have small := UInt8.toNat_lt (Decimal.roundHalfAway (clampedChannel x * 255.0)).toUInt8
  intro member
  rcases List.mem_cons.mp member with high | later
  · exact (hexDigit_spec _ (by omega)).1 high.symm
  · exact (hexDigit_spec _ (by omega)).1 (List.mem_singleton.mp later).symm

/-- The color of a light is a text without a quote. -/
theorem tells_color
    (light : Light) :
    context.TellsAll (colorAttributes light) := by
  refine tells_given fun _ => .text ?_
  show '"' ∉ ("#" ++ colorText light.color).toList
  unfold colorText
  simp only [String.toList_append, List.mem_append, not_or]
  exact ⟨by decide, ⟨quote_not_mem_channelText _, quote_not_mem_channelText _⟩,
    quote_not_mem_channelText _⟩

/-- A transform is printed as constants. -/
theorem tells_transform
    (transform : Transform)
    (precision : UInt32) :
    context.TellsAll (transformAttributes transform precision) := by
  unfold transformAttributes
  refine tells_append (tells_append ?_ ?_) ?_
  · exact tells_constant _ _ (constant_vectorText _ _)
  · exact tells_constant _ _ (constant_anglesText _ _)
  · refine tells_constant _ _ ?_
    split
    next => exact constant_numberText _ _
    next => exact constant_vectorText _ _

/-- The material is taken from the materials by name or from the node itself. -/
theorem tells_materialAttribute
    (used : context.node.material.isSome = true) :
    context.Tells context.materialAttribute.value := by
  show context.Tells (.expression _)
  cases unnamed : context.materialName.isEmpty with
  | true =>
      rw [if_pos rfl]
      exact .property (.inr (.inr (.inr ⟨used, unnamed⟩))) (by decide)
  | false =>
      rw [if_neg Bool.false_ne_true]
      exact .material used unnamed

/-- Geometry and material refer to the node itself or to a material in use. -/
theorem tells_surfaceBlock
    {surface : Attributes}
    (drawn : context.surfaceBlock = .ok surface) :
    context.TellsAll surface := by
  unfold NodeContext.surfaceBlock at drawn
  split at drawn
  next count kind =>
    have mesh : context.RefersToItself := by
      refine .inl ?_
      rw [kind]
      rfl
    split at drawn
    next => cases drawn
    next =>
      cases drawn
      exact List.forall_mem_cons.mpr
        ⟨.arguments mesh count, tells_singleton (.property mesh (by decide))⟩
  next =>
    cases drawn
    refine tells_append (tells_given fun holds => ?_) (tells_given tells_materialAttribute)
    exact .property (.inr (.inl holds)) (by decide)

/-- A skinned mesh is a mesh. -/
theorem isMesh_of_isSkinnedMesh
    {kind : NodeKind}
    (skinned : kind.isSkinnedMesh = true) :
    kind.isMesh = true := by
  revert skinned
  cases kind <;> simp [NodeKind.isSkinnedMesh, NodeKind.isMesh]

/-- What a node takes from its own expression are the listed properties. -/
theorem tells_ownBlock :
    context.TellsAll context.ownBlock := by
  unfold NodeContext.ownBlock
  simp only
  refine tells_append (tells_append (tells_append (tells_append (tells_append
    (tells_append (tells_append ?_ ?_) ?_) ?_) ?_) ?_) ?_) ?_
  · exact tells_given fun skinned => .property (.inl (isMesh_of_isSkinnedMesh skinned)) (by decide)
  · exact tells_constant _ _ (constant_of_signs (by decide))
  · exact tells_given fun _ => .flag
  · exact tells_given fun _ => .flag
  · exact tells_given fun blends => .property (.inr (.inr (.inl blends))) (by decide)
  · exact tells_given fun blends => .property (.inr (.inr (.inl blends))) (by decide)
  · split
    next => exact tells_light _ _
    next => exact tells_nil
  · exact tells_constant _ _ (constant_vectorText _ _)

/-- Every attribute of a node has a value of one of the forms. -/
theorem tells_attributes
    {transform : Transform}
    {attributes : Attributes}
    (listed : context.attributes transform = .ok attributes) :
    context.TellsAll attributes := by
  have around :
      ∀ drawn : Attributes, context.TellsAll drawn →
        context.TellsAll
          (context.cameraBlock ++ context.shadowBlock ++ drawn ++ context.colorBlock
            ++ transformAttributes transform context.options.precision ++ context.dataBlock) := by
    intro drawn told
    refine tells_append (tells_append (tells_append (tells_append (tells_append ?_ ?_)
      told) ?_) (tells_transform _ _)) (tells_constant _ _ (constant_compact _))
    · unfold NodeContext.cameraBlock
      split
      next => exact tells_camera _ _
      next => exact tells_nil
    · unfold NodeContext.shadowBlock
      split
      next => exact List.forall_mem_cons.mpr ⟨.flag, tells_singleton .flag⟩
      next => exact tells_nil
    · unfold NodeContext.colorBlock
      split
      next => exact tells_color _
      next => exact tells_nil
  unfold NodeContext.attributes at listed
  cases instanced : context.instanced with
  | true =>
      rw [instanced] at listed
      cases listed
      exact around [] tells_nil
  | false =>
      rw [instanced] at listed
      cases surface : context.surfaceBlock with
      | error fault =>
          rw [surface] at listed
          cases listed
      | ok block =>
          rw [surface] at listed
          cases listed
          exact around _ (tells_append (tells_surfaceBlock surface) tells_ownBlock)

end Blocks

end SceneMarkup.Markup
