import SceneMarkup.Markup.NodeAttributes

namespace SceneMarkup.Markup

open Scene

/-!
# What a node prints

The attributes of a node fall into three parts: what stands before the
transform, the transform, and user data.  Only the middle one depends on where
the node stands, and only there are positions, rotations and scales.
-/

/-- Whether the attributes of a node can be written at all. -/
def isExpressible (node : Node) : Bool :=
  !(node.kind.isInstancedMesh && (node.geometry.isNone || node.material.isNone))

/-- Attributes that stand before the transform. -/
def NodeContext.leadingBlock (context : NodeContext) : Except Malformed Attributes :=
  let drawn : Except Malformed Attributes :=
    if context.instanced then .ok []
    else context.surfaceBlock.map fun surface => surface ++ context.ownBlock
  drawn.map fun drawn =>
    context.cameraBlock ++ context.shadowBlock ++ drawn ++ context.colorBlock

/-- Whether a node has no attributes besides those of its transform. -/
def NodeContext.isBare (context : NodeContext) : Bool :=
  match context.leadingBlock with
  | .ok leading => leading.isEmpty && context.dataBlock.isEmpty
  | .error _ => false

/-- Whether the node at `id` has no attributes besides those of its transform. -/
def isBare (labels : Labels) (id : NodeId) : Bool :=
  (NodeContext.ofLabels labels id).isBare

/-- What a transform prints. -/
def printedTransform (labels : Labels) (transform : Transform) : Attributes :=
  transformAttributes transform labels.options.precision

namespace Attributes

/-- Two rows hold a transform if one of them does. -/
@[simp] theorem hasTransform_append
    (first second : Attributes) :
    hasTransform (first ++ second) = (hasTransform first || hasTransform second) := by
  simp [hasTransform]

@[simp] theorem hasTransform_nil : hasTransform [] = false := rfl

@[simp] theorem hasTransform_cons
    (first : Attribute)
    (rest : Attributes) :
    hasTransform (first :: rest) = (first.key.isTransform || hasTransform rest) := rfl

/-- An attribute under a condition is a transform if the condition holds and its key is one. -/
@[simp] theorem hasTransform_given
    (condition : Bool)
    (entry : Attribute) :
    hasTransform (given condition entry) = (condition && entry.key.isTransform) := by
  cases condition <;> simp [hasTransform, given]

/-- Where no transform is held no key is one. -/
theorem key_of_still
    {attributes : Attributes}
    (still : attributes.hasTransform = false)
    {entry : Attribute}
    (member : entry ∈ attributes) :
    entry.key.isTransform = false := by
  rw [hasTransform, List.any_eq_false] at still
  simpa using still entry member

end Attributes

open Attributes

/-- A number that is left out at its default is a transform only if it differs. -/
@[simp] theorem hasTransform_unlessDefault
    (key : AttributeKey)
    (x : Float)
    (precision : UInt32)
    (fallback : Float) :
    hasTransform (unlessDefault key x precision fallback) =
      (differs x precision fallback && key.isTransform) := by
  simp [unlessDefault, Attribute.expression]

/-- A number that may be absent is a transform only if it is there and differs. -/
@[simp] theorem hasTransform_unlessAbsent
    (key : AttributeKey)
    (x : Option Float)
    (precision : UInt32)
    (fallback : Float) :
    hasTransform (unlessAbsent key x precision fallback) =
      ((x.any fun x => differs x precision fallback) && key.isTransform) := by
  cases x with
  | none => rfl
  | some x => exact hasTransform_unlessDefault key x precision fallback

/-- The settings of a light hold no transform. -/
theorem hasTransform_lightAttributes
    (light : Light)
    (precision : UInt32) :
    hasTransform (lightAttributes light precision) = false := by
  unfold lightAttributes
  cases light.angle <;> simp [Attribute.expression, AttributeKey.isTransform]

namespace NodeContext

variable (context : NodeContext)

/-- The settings of a camera hold no transform. -/
theorem hasTransform_cameraBlock :
    hasTransform context.cameraBlock = false := by
  unfold cameraBlock
  split
  next camera _ =>
    unfold cameraAttributes
    cases camera.projection <;> simp [Attribute.expression, AttributeKey.isTransform]
  next => rfl

/-- Shadow keys hold no transform. -/
theorem hasTransform_shadowBlock :
    hasTransform context.shadowBlock = false := by
  unfold shadowBlock
  split <;> rfl

/-- Geometry and material hold no transform. -/
theorem hasTransform_surfaceBlock
    {surface : Attributes}
    (drawn : context.surfaceBlock = .ok surface) :
    hasTransform surface = false := by
  unfold surfaceBlock at drawn
  split at drawn
  · split at drawn
    · cases drawn
    · cases drawn
      rfl
  · cases drawn
    simp [Attribute.expression, materialAttribute, AttributeKey.isTransform]

/-- What a node takes from its own expression holds no transform. -/
theorem hasTransform_ownBlock :
    hasTransform context.ownBlock = false := by
  unfold ownBlock
  simp only [hasTransform_append, hasTransform_given, Attribute.expression, Attribute.flag,
    AttributeKey.isTransform, Bool.and_false, Bool.false_or, Bool.or_false]
  split
  next light _ => exact hasTransform_lightAttributes light _
  next => rfl

theorem hasTransform_colorBlock :
    hasTransform context.colorBlock = false := by
  unfold colorBlock
  split
  next light _ => simp [colorAttributes, Attribute.text, AttributeKey.isTransform]
  next => rfl

/-- User data hold no transform. -/
theorem hasTransform_dataBlock :
    hasTransform context.dataBlock = false := by
  simp [dataBlock, Attribute.expression, AttributeKey.isTransform]

/-- What is printed before the transform holds none. -/
theorem hasTransform_leadingBlock
    {leading : Attributes}
    (printed : context.leadingBlock = .ok leading) :
    hasTransform leading = false := by
  unfold leadingBlock at printed
  by_cases instanced : context.instanced
  · simp only [instanced, if_true, Except.map, Except.ok.injEq] at printed
    subst printed
    simp [hasTransform_cameraBlock, hasTransform_shadowBlock, hasTransform_colorBlock]
  · cases surface : context.surfaceBlock with
    | error fault => simp [instanced, surface, Except.map] at printed
    | ok surfaceAttributes =>
        simp only [instanced, surface, Except.map, Bool.false_eq_true, if_false,
          Except.ok.injEq] at printed
        subst printed
        simp [hasTransform_cameraBlock, hasTransform_shadowBlock, hasTransform_colorBlock,
          hasTransform_ownBlock, context.hasTransform_surfaceBlock surface]

/-- The attributes of a node are three parts, and the transform is in the middle. -/
theorem attributes_eq
    (transform : Transform) :
    context.attributes transform =
      context.leadingBlock.map fun leading =>
        leading ++ transformAttributes transform context.options.precision
          ++ context.dataBlock := by
  unfold attributes leadingBlock
  by_cases instanced : context.instanced
  · simp [instanced, Except.map]
  · cases context.surfaceBlock <;> simp [instanced, Except.map]

end NodeContext

/-- All that a transform prints is a transform. -/
theorem isTransform_of_mem
    {transform : Transform}
    {precision : UInt32}
    {entry : Attribute}
    (member : entry ∈ transformAttributes transform precision) :
    entry.key.isTransform = true := by
  have cases : ∀ (condition : Bool) (other : Attribute),
      entry ∈ given condition other → entry = other := by
    intro condition other listed
    cases condition
    · cases listed
    · exact List.mem_singleton.mp listed
  simp only [transformAttributes, List.mem_append] at member
  rcases member with (position | rotation) | scale
  · exact cases _ _ position ▸ rfl
  · exact cases _ _ rotation ▸ rfl
  · exact cases _ _ scale ▸ rfl

section Tests

variable {labels : Labels} {id : NodeId} {transform : Transform} {attributes : Attributes}

/-- The attributes of a node are what stands before the transform, the transform and the data. -/
theorem attributesAt_parts
    (printed : attributesAt labels id transform = .ok attributes) :
    ∃ leading,
      (NodeContext.ofLabels labels id).leadingBlock = .ok leading ∧
        hasTransform leading = false ∧
        attributes =
          leading ++ printedTransform labels transform
            ++ (NodeContext.ofLabels labels id).dataBlock := by
  rw [attributesAt, NodeContext.attributes_eq] at printed
  cases leadingPrinted : (NodeContext.ofLabels labels id).leadingBlock with
  | error fault =>
      rw [leadingPrinted] at printed
      cases printed
  | ok leading =>
      rw [leadingPrinted] at printed
      cases printed
      exact ⟨leading, rfl, NodeContext.hasTransform_leadingBlock _ leadingPrinted, rfl⟩

/-- Nothing is printed for a bare node at rest, and only for one. -/
theorem isEmpty_attributesAt
    (printed : attributesAt labels id transform = .ok attributes) :
    attributes.isEmpty = (isBare labels id && (printedTransform labels transform).isEmpty) := by
  obtain ⟨leading, leadingPrinted, _, parts⟩ := attributesAt_parts printed
  rw [isBare, NodeContext.isBare, leadingPrinted, parts]
  cases leading <;> cases printedTransform labels transform <;> simp

/-- A transform is found if the printed transform is not empty. -/
theorem hasTransform_attributesAt
    (printed : attributesAt labels id transform = .ok attributes) :
    attributes.hasTransform = !(printedTransform labels transform).isEmpty := by
  obtain ⟨leading, _, still, parts⟩ := attributesAt_parts printed
  rw [parts, hasTransform_append, hasTransform_append, still,
    NodeContext.hasTransform_dataBlock, Bool.false_or, Bool.or_false]
  cases shape : printedTransform labels transform with
  | nil => rfl
  | cons first rest =>
      have member : first ∈ printedTransform labels transform := by simp [shape]
      simp [hasTransform, isTransform_of_mem member]

/-- Parts that hold no transform are all transforms only when they are empty. -/
theorem all_of_still
    {part : Attributes}
    (still : hasTransform part = false) :
    (part.all fun entry => entry.key.isTransform) = part.isEmpty := by
  cases part with
  | nil => rfl
  | cons first rest => simp [key_of_still still (List.mem_cons_self)]

/-- There are only transforms if the node is bare and not at rest. -/
theorem isOnlyTransform_attributesAt
    (printed : attributesAt labels id transform = .ok attributes) :
    attributes.isOnlyTransform =
      (isBare labels id && !(printedTransform labels transform).isEmpty) := by
  obtain ⟨leading, leadingPrinted, still, parts⟩ := attributesAt_parts printed
  have moves :
      ((printedTransform labels transform).all fun entry => entry.key.isTransform) = true :=
    List.all_eq_true.mpr fun entry member => isTransform_of_mem member
  rw [isOnlyTransform, isEmpty_attributesAt printed, isBare, NodeContext.isBare, leadingPrinted,
    parts, List.all_append, List.all_append, moves, all_of_still still,
    all_of_still (NodeContext.hasTransform_dataBlock _)]
  cases leading <;> cases (NodeContext.ofLabels labels id).dataBlock <;> simp

/-- There is only one key, a transform's, if the node is bare and its transform prints it alone. -/
theorem isOnly_attributesAt
    {key : AttributeKey}
    (moving : key.isTransform = true)
    (printed : attributesAt labels id transform = .ok attributes) :
    attributes.isOnly key =
      (isBare labels id && isOnly (printedTransform labels transform) key) := by
  obtain ⟨leading, leadingPrinted, still, parts⟩ := attributesAt_parts printed
  have stillData := NodeContext.hasTransform_dataBlock (NodeContext.ofLabels labels id)
  rw [isBare, NodeContext.isBare, leadingPrinted, parts]
  have foreign :
      ∀ {part : Attributes}, hasTransform part = false → ∀ entry ∈ part, entry.key ≠ key := by
    intro part stillPart entry member same
    have unmoved := key_of_still stillPart member
    rw [same, moving] at unmoved
    cases unmoved
  cases leading with
  | cons first rest =>
      have different := foreign still first List.mem_cons_self
      simp [isOnly, different]
  | nil =>
      cases data : (NodeContext.ofLabels labels id).dataBlock with
      | nil => simp
      | cons last rest =>
          rw [data] at stillData
          have different := foreign stillData last List.mem_cons_self
          cases shape : printedTransform labels transform with
          | nil => simp [isOnly, different]
          | cons first others => simp [isOnly]

/-- Whether a node can be written does not depend on where it stands. -/
theorem attributesAt_ok_iff :
    (∃ written, attributesAt labels id transform = .ok written) ↔
      isExpressible (labels.graph.node id) = true := by
  have plain :
      (labels.sharedPair? id).isSome = true →
        (labels.graph.node id).kind.isInstancedMesh = false := by
    intro shared
    unfold Labels.sharedPair? at shared
    cases kind : (labels.graph.node id).kind <;>
      simp [kind, NodeKind.isPlainMesh, NodeKind.isInstancedMesh] at shared ⊢
  rw [attributesAt, NodeContext.attributes_eq, NodeContext.leadingBlock]
  by_cases shared : (labels.sharedPair? id).isSome = true
  · have unshared := plain shared
    simp [NodeContext.ofLabels, shared, isExpressible, unshared, Except.map]
  · have drawn : (NodeContext.ofLabels labels id).instanced = false := by
      simpa [NodeContext.ofLabels] using shared
    rw [drawn]
    unfold NodeContext.surfaceBlock isExpressible
    simp only [NodeContext.ofLabels]
    cases kind : (labels.graph.node id).kind with
    | instancedMesh count =>
        by_cases lacking : ((labels.graph.node id).geometry.isNone
            || (labels.graph.node id).material.isNone) = true
        · simp [lacking, NodeKind.isInstancedMesh, Except.map]
        · simp [lacking, NodeKind.isInstancedMesh, Except.map]
    | _ => simp [NodeKind.isInstancedMesh, Except.map]

end Tests

end SceneMarkup.Markup
