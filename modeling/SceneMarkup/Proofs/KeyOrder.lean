import Mathlib.Data.List.Nodup
import Mathlib.Data.List.Perm.Subperm
import SceneMarkup.Markup.NodeAttributes

namespace SceneMarkup.Markup

open List Scene

/-!
# The order of the attributes

Every block of a node's attributes takes its keys from a row of its own, each key
once at most, and the rows follow each other in one order.  Only the shadows have
two places: before the surface when the settings ask for them, and after it when
the node itself does.  One of the two is always empty.
-/

/-- The two keys that can stand in either of two places. -/
def shadowKeys : List AttributeKey :=
  [.castShadow, .receiveShadow]

/-- The row of a camera. -/
def cameraRow : List AttributeKey :=
  [.makeDefault, .zoom, .far, .near, .fov]

/-- The row of a surface, be it the node's own or that of its copies. -/
def surfaceRow : List AttributeKey :=
  [.args, .instanceMatrix, .geometry, .material]

/-- The row of what else a node carries itself, its shadows unless they are written anyway. -/
def ownRow (blanket : Bool) : List AttributeKey :=
  [.skeleton, .visible]
    ++ (if blanket then [] else shadowKeys)
    ++ [.morphTargetDictionary, .morphTargetInfluences]
    ++ [.intensity, .angle, .penumbra, .decay, .distance]
    ++ [.up]

/-- All keys in the order in which they are written. -/
def keyOrder (blanket : Bool) : List AttributeKey :=
  cameraRow ++ (if blanket then shadowKeys else []) ++ (surfaceRow ++ ownRow blanket) ++ [.color]
    ++ [.position, .rotation, .scale] ++ [.userData]

/-- The keys of the attributes, as they are listed. -/
def Attributes.keys (attributes : Attributes) : List AttributeKey :=
  attributes.map (·.key)

/-- The first key is listed somewhere before the second one. -/
def Before (first second : AttributeKey) (keys : List AttributeKey) : Prop :=
  [first, second] <+ keys

instance (first second : AttributeKey) (keys : List AttributeKey) :
    Decidable (Before first second keys) :=
  inferInstanceAs (Decidable ([first, second] <+ keys))

/-- The keys are taken from the row, in its order. -/
def Attributes.Within (attributes : Attributes) (row : List AttributeKey) : Prop :=
  attributes.keys <+ row

section Rows

theorem within_nil
    (row : List AttributeKey) :
    Attributes.Within [] row :=
  List.nil_sublist row

/-- Two blocks keep to the row of the first and then the row of the second. -/
theorem within_append
    {first second : Attributes}
    {row next : List AttributeKey}
    (begins : first.Within row)
    (ends : second.Within next) :
    Attributes.Within (first ++ second) (row ++ next) := by
  unfold Attributes.Within Attributes.keys
  rw [List.map_append]
  exact begins.append ends

/-- An attribute under a condition keeps to its own key. -/
theorem within_given
    (condition : Bool)
    (entry : Attribute) :
    Attributes.Within (given condition entry) [entry.key] := by
  cases condition with
  | true => exact List.Sublist.refl _
  | false => exact within_nil _

theorem within_unlessDefault
    (key : AttributeKey)
    (x : Float)
    (precision : UInt32)
    (fallback : Float) :
    Attributes.Within (unlessDefault key x precision fallback) [key] :=
  within_given _ _

theorem within_unlessAbsent
    (key : AttributeKey)
    (x : Option Float)
    (precision : UInt32)
    (fallback : Float) :
    Attributes.Within (unlessAbsent key x precision fallback) [key] := by
  cases x with
  | none => exact within_nil _
  | some x => exact within_unlessDefault key x precision fallback

/-- The settings of a camera keep to their row. -/
theorem within_cameraAttributes
    (camera : Camera)
    (precision : UInt32) :
    Attributes.Within (cameraAttributes camera precision) cameraRow := by
  unfold cameraAttributes
  show Attributes.Within _
    ([.makeDefault] ++ [.zoom] ++ [.far] ++ [.near] ++ [AttributeKey.fov])
  refine within_append (within_append (within_append (within_append ?_ ?_) ?_) ?_) ?_
  · exact List.Sublist.refl _
  · exact within_unlessDefault _ _ _ _
  · exact within_unlessDefault _ _ _ _
  · exact within_unlessDefault _ _ _ _
  · split
    next => exact within_unlessDefault _ _ _ _
    next => exact within_nil _

/-- The settings of a light keep to their row. -/
theorem within_lightAttributes
    (light : Light)
    (precision : UInt32) :
    Attributes.Within (lightAttributes light precision)
      [.intensity, .angle, .penumbra, .decay, .distance] := by
  unfold lightAttributes
  show Attributes.Within _
    ([.intensity] ++ [.angle] ++ [.penumbra] ++ [.decay] ++ [AttributeKey.distance])
  refine within_append (within_append (within_append (within_append ?_ ?_) ?_) ?_) ?_
  · exact within_unlessDefault _ _ _ _
  · split
    next => exact within_given _ _
    next => exact within_nil _
  · exact within_unlessAbsent _ _ _ _
  · exact within_unlessAbsent _ _ _ _
  · exact within_unlessAbsent _ _ _ _

/-- A transform is printed position first and scale last. -/
theorem within_transformAttributes
    (transform : Transform)
    (precision : UInt32) :
    Attributes.Within (transformAttributes transform precision) [.position, .rotation, .scale] :=
  within_append (within_append (within_given _ _) (within_given _ _)) (within_given _ _)

namespace NodeContext

variable {context : NodeContext}

theorem within_cameraBlock :
    context.cameraBlock.Within cameraRow := by
  unfold cameraBlock
  split
  next => exact within_cameraAttributes _ _
  next => exact within_nil _

/-- Shadow keys stand where blanket shadows are asked for. -/
theorem within_shadowBlock :
    context.shadowBlock.Within (if context.blanketShadows then shadowKeys else []) := by
  unfold shadowBlock
  split
  next => exact List.Sublist.refl _
  next => exact within_nil _

/-- Geometry comes before material. -/
theorem within_surfaceBlock
    {surface : Attributes}
    (drawn : context.surfaceBlock = .ok surface) :
    surface.Within surfaceRow := by
  unfold surfaceBlock at drawn
  split at drawn
  next =>
    split at drawn
    next => cases drawn
    next =>
      cases drawn
      exact List.sublist_append_left _ [AttributeKey.geometry, .material]
  next =>
    cases drawn
    exact (within_append (within_given _ _) (within_given _ _)).trans
      (List.sublist_append_right [AttributeKey.args, .instanceMatrix] _)

/-- The node's own shadows are written unless all shadows are. -/
theorem within_ownShadows :
    Attributes.Within
      (given (context.node.castShadow && !context.blanketShadows) (.flag .castShadow)
        ++ given (context.node.receiveShadow && !context.blanketShadows) (.flag .receiveShadow))
      (if context.blanketShadows then [] else shadowKeys) := by
  cases context.blanketShadows with
  | true =>
      rw [Bool.not_true, Bool.and_false, Bool.and_false]
      exact within_nil _
  | false => exact within_append (within_given _ _) (within_given _ _)

/-- What a node takes from its own expression keeps to its row. -/
theorem within_ownBlock :
    context.ownBlock.Within (ownRow context.blanketShadows) := by
  unfold ownBlock ownRow
  simp only
  refine within_append (within_append ?_ ?_) (within_given _ _)
  · rw [List.append_assoc _ (given _ _) (given _ _)]
    refine within_append ?_ (within_append (within_given _ _) (within_given _ _))
    rw [List.append_assoc _ (given _ _) (given _ _)]
    exact within_append (within_append (within_given _ _) (within_given _ _)) within_ownShadows
  · split
    next => exact within_lightAttributes _ _
    next => exact within_nil _

theorem within_colorBlock :
    context.colorBlock.Within [.color] := by
  unfold colorBlock
  split
  next => exact within_given _ _
  next => exact within_nil _

/-- The attributes of a node keep to the order of keys. -/
theorem within_attributes
    {transform : Transform}
    {attributes : Attributes}
    (printed : context.attributes transform = .ok attributes) :
    attributes.Within (keyOrder context.blanketShadows) := by
  have around :
      ∀ drawn : Attributes, drawn.Within (surfaceRow ++ ownRow context.blanketShadows) →
        Attributes.Within
          (context.cameraBlock ++ context.shadowBlock ++ drawn ++ context.colorBlock
            ++ transformAttributes transform context.options.precision ++ context.dataBlock)
          (keyOrder context.blanketShadows) := by
    intro drawn within
    exact within_append (within_append (within_append (within_append (within_append
      within_cameraBlock within_shadowBlock) within) within_colorBlock)
      (within_transformAttributes _ _)) (within_given _ _)
  unfold NodeContext.attributes at printed
  cases instanced : context.instanced with
  | true =>
      rw [instanced] at printed
      cases printed
      exact around [] (within_nil _)
  | false =>
      rw [instanced] at printed
      cases surface : context.surfaceBlock with
      | error fault =>
          rw [surface] at printed
          cases printed
      | ok block =>
          rw [surface] at printed
          cases printed
          exact around _ (within_append (within_surfaceBlock surface) within_ownBlock)

end NodeContext

end Rows

section Orders

variable {keys order : List AttributeKey} {first second : AttributeKey}

/-- What is listed of a row without repeats stands in the order of the row. -/
theorem before_iff_of_sublist
    (listed : keys <+ order)
    (distinct : order.Nodup)
    (hasFirst : first ∈ keys)
    (hasSecond : second ∈ keys) :
    Before first second keys ↔ Before first second order := by
  refine ⟨fun before => before.trans listed, fun before => ?_⟩
  -- Of the row and of what is listed, the same is left if only the two keys are looked at.
  have picked : keys.filter (· ∈ [first, second]) = order.filter (· ∈ [first, second]) := by
    refine (listed.filter _).eq_of_length_le
      (List.subperm_of_subset (distinct.filter _) ?_).length_le
    intro key member
    obtain ⟨_, chosen⟩ := List.mem_filter.mp member
    refine List.mem_filter.mpr ⟨?_, chosen⟩
    rcases List.mem_pair.mp (of_decide_eq_true chosen) with rfl | rfl
    · exact hasFirst
    · exact hasSecond
  have both : [first, second] <+ order.filter (· ∈ [first, second]) := by
    have kept := before.filter (· ∈ [first, second])
    rwa [List.filter_eq_self.mpr fun key member => decide_eq_true member] at kept
  exact (picked ▸ both).trans List.filter_sublist

/-- Leaving out other keys does not change which of two comes first. -/
theorem before_filter
    (keep : AttributeKey → Bool)
    (keepsFirst : keep first = true)
    (keepsSecond : keep second = true) :
    Before first second (keys.filter keep) ↔ Before first second keys := by
  refine ⟨fun before => before.trans List.filter_sublist, fun before => ?_⟩
  have kept := List.Sublist.filter keep before
  rwa [List.filter_cons_of_pos keepsFirst, List.filter_cons_of_pos keepsSecond] at kept

/-- No two keys of the order have one name. -/
theorem nodup_keyOrder
    (blanket : Bool) :
    ((keyOrder blanket).map AttributeKey.name).Nodup := by
  cases blanket <;> decide

/-- Without the shadows there is one order. -/
theorem before_keyOrder
    (blanket : Bool)
    (still : first ∉ shadowKeys)
    (alsoStill : second ∉ shadowKeys) :
    Before first second (keyOrder blanket) ↔ Before first second (keyOrder false) := by
  let keep (key : AttributeKey) : Bool := key ∉ shadowKeys
  have same : (keyOrder blanket).filter keep = (keyOrder false).filter keep := by
    cases blanket <;> rfl
  rw [← before_filter keep (decide_eq_true still) (decide_eq_true alsoStill), same,
    before_filter keep (decide_eq_true still) (decide_eq_true alsoStill)]

end Orders

/--
The attributes of a node are well formed, whatever the node, its labels, its place
and the settings: no key is written twice, and two keys other than the shadows that
are written for two nodes are written in the same order for both.
-/
theorem attributes_keep_order
    {first second : NodeContext}
    {firstPlace secondPlace : Transform}
    {left right : Attributes}
    (printed : first.attributes firstPlace = .ok left)
    (alsoPrinted : second.attributes secondPlace = .ok right) :
    (left.map fun entry => entry.key.name).Nodup ∧
      ∀ upper ∉ shadowKeys, ∀ lower ∉ shadowKeys,
        upper ∈ left.keys → lower ∈ left.keys → upper ∈ right.keys → lower ∈ right.keys →
          (Before upper lower left.keys ↔ Before upper lower right.keys) := by
  have within := NodeContext.within_attributes printed
  have alsoWithin := NodeContext.within_attributes alsoPrinted
  refine ⟨?_, ?_⟩
  · have names := (within.map AttributeKey.name).nodup (nodup_keyOrder _)
    rwa [Attributes.keys, List.map_map] at names
  · intro upper still lower alsoStill upperLeft lowerLeft upperRight lowerRight
    rw [before_iff_of_sublist within (List.Nodup.of_map _ (nodup_keyOrder _)) upperLeft lowerLeft,
      before_iff_of_sublist alsoWithin (List.Nodup.of_map _ (nodup_keyOrder _)) upperRight lowerRight,
      before_keyOrder first.blanketShadows still alsoStill,
      before_keyOrder second.blanketShadows still alsoStill]

/-- A skinned mesh that is hidden, casts a shadow and blends shapes. -/
def dancer : Node :=
  { name := "Dancer"
    kind := .skinnedMesh
    geometry := some 0
    material := some 0
    visible := false
    castShadow := true
    morphTargets := some ⟨["smile"], [0.5]⟩
    transform := { Transform.identity with position := ⟨1.0, 2.0, 3.0⟩ } }

/-- The shadow moves when the settings ask for it, and the other keys of the dancer do not. -/
theorem attributes_keep_order_dancer :
    let own : NodeContext := ⟨dancer, "Dancer", "nodes.Dancer", false, "Silk", {}⟩
    let lit : NodeContext := { own with options := { shadows := true } }
    ∃ left right,
      own.attributes dancer.transform = .ok left ∧
        lit.attributes .identity = .ok right ∧
        left.keys =
          [.geometry, .material, .skeleton, .visible, .castShadow, .morphTargetDictionary,
            .morphTargetInfluences, .position] ∧
        right.keys =
          [.castShadow, .receiveShadow, .geometry, .material, .skeleton, .visible,
            .morphTargetDictionary, .morphTargetInfluences] ∧
        (left.map fun entry => entry.key.name).Nodup ∧
        (Before .skeleton .visible left.keys ↔ Before .skeleton .visible right.keys) := by
  intro own lit
  have leftKeys :
      (own.attributes dancer.transform).toOption.map Attributes.keys =
        some [.geometry, .material, .skeleton, .visible, .castShadow, .morphTargetDictionary,
          .morphTargetInfluences, .position] := by
    decide +kernel
  have rightKeys :
      (lit.attributes .identity).toOption.map Attributes.keys =
        some [.castShadow, .receiveShadow, .geometry, .material, .skeleton, .visible,
          .morphTargetDictionary, .morphTargetInfluences] := by
    decide +kernel
  cases printed : own.attributes dancer.transform with
  | error fault =>
      rw [printed] at leftKeys
      cases leftKeys
  | ok left =>
      cases alsoPrinted : lit.attributes .identity with
      | error fault =>
          rw [alsoPrinted] at rightKeys
          cases rightKeys
      | ok right =>
          rw [printed] at leftKeys
          rw [alsoPrinted] at rightKeys
          have inLeft := Option.some.inj leftKeys
          have inRight := Option.some.inj rightKeys
          obtain ⟨distinct, ordered⟩ := attributes_keep_order printed alsoPrinted
          refine ⟨left, right, rfl, rfl, inLeft, inRight, distinct,
            ordered .skeleton (by decide) .visible (by decide) ?_ ?_ ?_ ?_⟩
          · exact inLeft ▸ by decide
          · exact inLeft ▸ by decide
          · exact inRight ▸ by decide
          · exact inRight ▸ by decide

end SceneMarkup.Markup
