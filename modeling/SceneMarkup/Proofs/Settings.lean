import SceneMarkup.Proofs.Angles
import SceneMarkup.Proofs.KeyOrder

namespace SceneMarkup.Scene

open Markup

/-- The numbers that a camera is set by, each under the key it is written with. -/
def Camera.number? (camera : Camera) : AttributeKey → Option Float
  | .zoom => some camera.zoom
  | .far => some camera.far
  | .near => some camera.near
  | .fov =>
      match camera.projection with
      | .perspective fieldOfView _ => some fieldOfView
      | .orthographic _ _ => none
  | _ => none

/-- The numbers that a light is set by, other than its angle. -/
def Light.number? (light : Light) : AttributeKey → Option Float
  | .intensity => some light.intensity
  | .penumbra => light.penumbra
  | .decay => light.decay
  | .distance => light.distance
  | _ => none

end SceneMarkup.Scene

namespace SceneMarkup.Markup

open Scene Decimal

/-!
# Settings that are left out come back

A camera or a light is made again at run time: the object starts with the defaults
of its class, and what is written is set.  A setting is left out when its rounding
equals the default, so the rounding comes back either way.  The intensity of a light
is compared with zero, which is not its default: a light that is rounded to darkness
comes back lit.
-/

/-- The value that is written under a key. -/
def Attributes.lookup (attributes : Attributes) (key : AttributeKey) : Option AttributeValue :=
  (attributes.find? fun entry => entry.key = key).map (·.value)

/-- A setting at run time: what is written, or else the default. -/
def Attributes.setting?
    (attributes : Attributes)
    (key : AttributeKey)
    (fallback : Option Float) :
    Option Float :=
  match attributes.lookup key with
  | none => fallback
  | some (.expression text) => readExpression? text.toList
  | some _ => none

section Lookup

variable {first second part : Attributes} {key other : AttributeKey}

@[simp] theorem lookup_append :
    Attributes.lookup (first ++ second) key = (first.lookup key).or (second.lookup key) := by
  simp [Attributes.lookup, List.find?_append, Option.map_or]

@[simp] theorem lookup_nil :
    Attributes.lookup [] key = none :=
  rfl

theorem lookup_given
    {condition : Bool}
    {entry : Attribute}
    (same : entry.key = key) :
    Attributes.lookup (given condition entry) key =
      if condition then some entry.value else none := by
  cases condition with
  | true => simp [Attributes.lookup, given, same]
  | false => rfl

/-- What keeps to a row holds no other key. -/
theorem lookup_of_within
    {row : List AttributeKey}
    (within : part.Within row)
    (absent : key ∉ row) :
    part.lookup key = none := by
  unfold Attributes.lookup
  rw [Option.map_eq_none_iff, List.find?_eq_none]
  intro entry listed
  rw [decide_eq_true_iff]
  rintro rfl
  exact absent (within.subset (List.mem_map_of_mem listed))

end Lookup

section Numbers

variable {attributes : Attributes} {key other : AttributeKey} {x fallback : Float}
  {precision : UInt32}

/-- A rounding that equals a default as a number is the default; no rounding is negative zero. -/
theorem roundTo_eq_of_beq
    (same : Float.beq (roundTo x precision) fallback = true)
    (usual : fallback = 0.0 ∨ Float.beq fallback 0.0 = false) :
    roundTo x precision = fallback := by
  rcases usual with rfl | some
  · unfold roundTo at same ⊢
    simp only at same ⊢
    split at same
    next zero => rw [if_pos zero]
    next more => exact absurd same more
  · rw [beq_eq] at same
    rcases same_of_beq same with equal | ⟨_, sign, _, zero⟩
    · rw [← packed_unpacked (roundTo x precision), equal, packed_unpacked]
    · rw [beq_zero_iff.mpr ⟨sign, zero⟩] at some
      cases some

/-- A setting is the rounding that is written, if that can be read, or the default of its class. -/
theorem setting?_of_unlessDefault
    {default : Option Float}
    (written : attributes.lookup key = (unlessDefault key x precision fallback).lookup key) :
    attributes.setting? key default =
      if differs x precision fallback then
        if (roundTo x precision).isFinite then some (roundTo x precision) else none
      else default := by
  unfold Attributes.setting?
  rw [written, unlessDefault, @lookup_given key _ (.expression key _) rfl]
  cases differs x precision fallback with
  | true => exact readExpression?_numberText x precision
  | false => rfl

/-- What is compared with its own default comes back exactly if its rounding is finite. -/
theorem setting?_eq_some_iff
    (written : attributes.lookup key = (unlessDefault key x precision fallback).lookup key)
    (finite : fallback.isFinite = true)
    (usual : fallback = 0.0 ∨ Float.beq fallback 0.0 = false) :
    attributes.setting? key (some fallback) = some (roundTo x precision) ↔
      (roundTo x precision).isFinite = true := by
  rw [setting?_of_unlessDefault written]
  cases differ : differs x precision fallback with
  | true =>
      rw [if_pos rfl]
      split
      next known => exact iff_of_true rfl known
      next unknown => exact iff_of_false (fun same => nomatch same) unknown
  | false =>
      rw [differs, Bool.not_eq_false'] at differ
      rw [if_neg Bool.false_ne_true, roundTo_eq_of_beq differ usual]
      exact iff_of_true rfl finite

/-- An intensity is compared with darkness, and does not come back when it is rounded to it. -/
theorem setting?_intensity_iff
    (written : attributes.lookup key = (unlessDefault key x precision 0.0).lookup key) :
    attributes.setting? key (some 1.0) = some (roundTo x precision) ↔
      (roundTo x precision).isFinite = true ∧ differs x precision 0.0 = true := by
  rw [setting?_of_unlessDefault written]
  cases differ : differs x precision 0.0 with
  | true =>
      rw [if_pos rfl]
      split
      next known => exact iff_of_true rfl ⟨known, rfl⟩
      next unknown => exact iff_of_false (fun same => nomatch same) fun both => unknown both.1
  | false =>
      rw [differs, Bool.not_eq_false'] at differ
      rw [if_neg Bool.false_ne_true, roundTo_eq_of_beq differ (.inl rfl)]
      exact iff_of_false (by decide) fun both => Bool.false_ne_true both.2

end Numbers

section Blocks

variable {context : NodeContext} {transform : Transform} {precision : UInt32}
  {key : AttributeKey} {x : Float}

/-- An attribute of another key does not count. -/
theorem lookup_unlessDefault_other
    {other : AttributeKey}
    {fallback : Float}
    (different : key ≠ other) :
    (unlessDefault other x precision fallback).lookup key = none :=
  lookup_of_within (within_unlessDefault _ _ _ _) (by simpa using different)

/-- A camera or a light that is no instance can always be written, its surface before the rest. -/
theorem exists_attributes
    (transform : Transform)
    (own : context.instanced = false)
    (single : context.node.kind.isInstancedMesh = false) :
    ∃ surface attributes,
      context.surfaceBlock = .ok surface ∧ context.attributes transform = .ok attributes ∧
        attributes =
          context.cameraBlock ++ context.shadowBlock ++ (surface ++ context.ownBlock)
            ++ context.colorBlock ++ transformAttributes transform context.options.precision
            ++ context.dataBlock := by
  cases drawn : context.surfaceBlock with
  | error fault =>
      unfold NodeContext.surfaceBlock at drawn
      split at drawn
      next kind =>
        rw [kind] at single
        cases single
      next => cases drawn
  | ok surface =>
      refine ⟨surface, _, rfl, ?_, rfl⟩
      rw [NodeContext.attributes, own, drawn]
      rfl

/-- What is written of a camera's own settings is found among all attributes. -/
theorem lookup_camera
    {camera : Camera}
    {attributes : Attributes}
    (own : context.instanced = false)
    (kind : context.node.kind = .camera camera)
    (printed : context.attributes transform = .ok attributes)
    (member : key ∈ cameraRow) :
    attributes.lookup key =
      (cameraAttributes camera context.options.precision).lookup key := by
  obtain ⟨surface, all, drawn, printedAll, parts⟩ :=
    exists_attributes transform own (by rw [kind]; rfl)
  obtain rfl : all = attributes := Except.ok.inj (printedAll.symm.trans printed)
  have apart : ∀ key ∈ cameraRow,
      key ∉ (if context.blanketShadows then shadowKeys else []) ∧ key ∉ surfaceRow ∧
        key ∉ ownRow context.blanketShadows ∧ key ∉ [AttributeKey.color] ∧
        key ∉ [AttributeKey.position, .rotation, .scale] ∧ key ∉ [AttributeKey.userData] := by
    cases context.blanketShadows <;> decide
  obtain ⟨shadows, drawing, rest, color, place, data⟩ := apart key member
  have block : context.cameraBlock = cameraAttributes camera context.options.precision := by
    unfold NodeContext.cameraBlock
    rw [kind]
  have userData : context.dataBlock.Within [.userData] := within_given _ _
  rw [parts, block]
  simp only [lookup_append, lookup_of_within NodeContext.within_shadowBlock shadows,
    lookup_of_within (NodeContext.within_surfaceBlock drawn) drawing,
    lookup_of_within NodeContext.within_ownBlock rest,
    lookup_of_within NodeContext.within_colorBlock color,
    lookup_of_within (within_transformAttributes _ _) place, lookup_of_within userData data,
    Option.or_none]

/-- The row of a light. -/
def lightRow : List AttributeKey :=
  [.intensity, .angle, .penumbra, .decay, .distance]

/-- Of what else a node carries itself, only the settings of a light have their keys. -/
theorem lookup_ownBlock
    {light : Light}
    (kind : context.node.kind = .light light)
    (member : key ∈ lightRow) :
    context.ownBlock.lookup key = (lightAttributes light context.options.precision).lookup key := by
  have outside : ∀ (condition : Bool) (other : AttributeKey) (value : AttributeValue),
      other ∉ lightRow → Attributes.lookup (given condition ⟨other, value⟩) key = none := by
    intro condition other value absent
    refine lookup_of_within (within_given _ _) ?_
    rw [List.mem_singleton]
    rintro rfl
    exact absent member
  unfold NodeContext.ownBlock
  simp only [kind, lookup_append, Attribute.expression, Attribute.flag,
    outside _ .skeleton _ (by decide), outside _ .visible _ (by decide),
    outside _ .castShadow _ (by decide), outside _ .receiveShadow _ (by decide),
    outside _ .morphTargetDictionary _ (by decide), outside _ .morphTargetInfluences _ (by decide),
    outside _ .up _ (by decide), Option.none_or, Option.or_none]

/-- What is written of a light's own settings is found among all attributes. -/
theorem lookup_light
    {light : Light}
    {attributes : Attributes}
    (own : context.instanced = false)
    (kind : context.node.kind = .light light)
    (printed : context.attributes transform = .ok attributes)
    (member : key ∈ lightRow) :
    attributes.lookup key =
      (lightAttributes light context.options.precision).lookup key := by
  obtain ⟨surface, all, drawn, printedAll, parts⟩ :=
    exists_attributes transform own (by rw [kind]; rfl)
  obtain rfl : all = attributes := Except.ok.inj (printedAll.symm.trans printed)
  have apart : ∀ key ∈ lightRow,
      key ∉ cameraRow ∧ key ∉ (if context.blanketShadows then shadowKeys else []) ∧
        key ∉ surfaceRow ∧ key ∉ [AttributeKey.color] ∧
        key ∉ [AttributeKey.position, .rotation, .scale] ∧ key ∉ [AttributeKey.userData] := by
    cases context.blanketShadows <;> decide
  obtain ⟨camera, shadows, drawing, color, place, data⟩ := apart key member
  have userData : context.dataBlock.Within [.userData] := within_given _ _
  rw [parts]
  simp only [lookup_append, lookup_of_within NodeContext.within_cameraBlock camera,
    lookup_of_within NodeContext.within_shadowBlock shadows,
    lookup_of_within (NodeContext.within_surfaceBlock drawn) drawing,
    lookup_ownBlock kind member, lookup_of_within NodeContext.within_colorBlock color,
    lookup_of_within (within_transformAttributes _ _) place, lookup_of_within userData data,
    Option.none_or, Option.or_none]

/-- Each number of a camera is compared with that of a fresh camera. -/
theorem exists_lookup_camera
    {camera : Camera}
    (known : camera.number? key = some x) :
    ∃ fallback, ({} : Camera).number? key = some fallback ∧ fallback.isFinite = true ∧
      (fallback = 0.0 ∨ Float.beq fallback 0.0 = false) ∧ key ∈ cameraRow ∧
      (cameraAttributes camera precision).lookup key =
        (unlessDefault key x precision fallback).lookup key := by
  obtain ⟨projection, zoom, near, far⟩ := camera
  have marked : key ≠ .makeDefault →
      Attributes.lookup [.expression .makeDefault "false"] key = none := by
    intro different
    have within : Attributes.Within [.expression .makeDefault "false"] [.makeDefault] :=
      List.Sublist.refl _
    exact lookup_of_within within (by simpa using different)
  have others := fun {other : AttributeKey} {y fallback : Float} =>
    @lookup_unlessDefault_other precision key y other fallback
  unfold cameraAttributes
  cases key <;> try cases known
  case zoom | far | near =>
    refine ⟨_, rfl, by decide, .inr (by decide), by decide, ?_⟩
    cases projection <;> simp only [lookup_append, lookup_nil, marked, others, ne_eq, reduceCtorEq,
      not_false_eq_true, Option.none_or, Option.or_none]
  case fov =>
    cases projection with
    | perspective fieldOfView ratio =>
        cases known
        refine ⟨_, rfl, by decide, .inr (by decide), by decide, ?_⟩
        simp only [lookup_append, marked, others, ne_eq, reduceCtorEq, not_false_eq_true,
          Option.none_or, Option.or_none]
    | orthographic => cases known

theorem lookup_unlessAbsent_other
    {other : AttributeKey}
    {number : Option Float}
    {fallback : Float}
    (different : key ≠ other) :
    (unlessAbsent other number precision fallback).lookup key = none :=
  lookup_of_within (within_unlessAbsent _ _ _ _) (by simpa using different)

/-- What is written of a light's angle. -/
def angleAttributes (light : Light) (precision : UInt32) : Attributes :=
  match light.angle with
  | some angle =>
      given (angleSteps angle != angleSteps thirdOfPi)
        (.expression .angle (angleText angle precision))
  | none => []

theorem lookup_angleAttributes_other
    {light : Light}
    (different : key ≠ .angle) :
    (angleAttributes light precision).lookup key = none := by
  unfold angleAttributes
  cases light.angle with
  | none => rfl
  | some angle =>
      exact lookup_of_within (within_given _ _) (by simpa [Attribute.expression] using different)

theorem lookup_lightAttributes
    (light : Light)
    (precision : UInt32)
    (key : AttributeKey) :
    (lightAttributes light precision).lookup key =
      (((((unlessDefault .intensity light.intensity precision 0.0).lookup key).or
        ((angleAttributes light precision).lookup key)).or
        ((unlessAbsent .penumbra light.penumbra precision 0.0).lookup key)).or
        ((unlessAbsent .decay light.decay precision 1.0).lookup key)).or
        ((unlessAbsent .distance light.distance precision 0.0).lookup key) := by
  rw [← lookup_append, ← lookup_append, ← lookup_append, ← lookup_append]
  rfl

/-- Each number of a light but the intensity is compared with that of a new light of its kind. -/
theorem exists_lookup_light
    {light : Light}
    (known : light.number? key = some x) :
    ∃ fallback, fallback.isFinite = true ∧ (fallback = 0.0 ∨ Float.beq fallback 0.0 = false) ∧
      key ∈ lightRow ∧ (key = .intensity → fallback = 0.0) ∧
      (key ≠ .intensity → ∀ usual, (Light.ofKind light.kind).number? key = some usual →
        usual = fallback) ∧
      (lightAttributes light precision).lookup key =
        (unlessDefault key x precision fallback).lookup key := by
  obtain ⟨kind, color, intensity, distance, decay, angle, penumbra⟩ := light
  rw [lookup_lightAttributes]
  have others := fun {other : AttributeKey} {y fallback : Float} =>
    @lookup_unlessDefault_other precision key y other fallback
  have absent := fun {other : AttributeKey} {number : Option Float} {fallback : Float} =>
    @lookup_unlessAbsent_other precision key other number fallback
  cases key <;> try cases known
  case intensity =>
    refine ⟨0.0, real_zero.1, .inl rfl, by decide, fun _ => rfl,
      fun different => absurd rfl different, ?_⟩
    simp only [absent, lookup_angleAttributes_other, ne_eq, reduceCtorEq, not_false_eq_true,
      Option.or_none]
  case penumbra | distance =>
    refine ⟨0.0, real_zero.1, .inl rfl, by decide, fun same => absurd same (by decide),
      fun _ usual => ?_, ?_⟩
    · cases kind <;> simp [Light.number?, Light.ofKind, eq_comm]
    · simp only [others, absent, lookup_angleAttributes_other, ne_eq, reduceCtorEq,
        not_false_eq_true, Option.none_or, Option.or_none]
      rfl
  case decay =>
    refine ⟨1.0, real_one.1, .inr (by decide), by decide,
      fun same => absurd same (by decide), fun _ usual => ?_, ?_⟩
    · cases kind <;> simp [Light.number?, Light.ofKind, eq_comm]
    · simp only [others, absent, lookup_angleAttributes_other, ne_eq, reduceCtorEq,
        not_false_eq_true, Option.none_or, Option.or_none]
      rfl

/-- The angle of a spot light comes back as its rounding, or less than a step away. -/
theorem exists_setting_angle
    {light : Light}
    {attributes : Attributes}
    (written : attributes.lookup .angle = (lightAttributes light precision).lookup .angle)
    (known : light.angle = some x)
    (finite : x.isFinite = true)
    (finiteRounded : (roundTo x precision).isFinite = true) :
    ∃ y, attributes.setting? .angle (some thirdOfPi) = some y ∧
      (y = roundTo x precision ∨ |real y - real x| ≤ 1 / 100000) := by
  rw [lookup_lightAttributes] at written
  simp only [lookup_unlessDefault_other, lookup_unlessAbsent_other, ne_eq, reduceCtorEq,
    not_false_eq_true, Option.none_or, Option.or_none, angleAttributes, known] at written
  unfold Attributes.setting?
  rw [written, @lookup_given .angle _ (.expression .angle _) rfl]
  cases differ : angleSteps x != angleSteps thirdOfPi with
  | true => exact exists_read_angleText finite finiteRounded
  | false =>
      rw [bne_eq_false_iff_eq] at differ
      exact ⟨thirdOfPi, rfl, .inr (abs_sub_le_of_angleSteps_eq finite differ)⟩

end Blocks

/--
A camera or a light that is no instance is always written, whatever the place and the
precision.  A setting comes back as it is rounded exactly if the rounding is finite and,
for an intensity, is not darkness; an angle may come back less than a step from where it
was.
-/
theorem settings_come_back
    {context : NodeContext}
    (transform : Transform)
    (own : context.instanced = false) :
    let precision := context.options.precision
    (∀ camera, context.node.kind = .camera camera →
      ∃ attributes, context.attributes transform = .ok attributes ∧
        ∀ key x, camera.number? key = some x →
          (attributes.setting? key (({} : Camera).number? key) = some (roundTo x precision) ↔
            (roundTo x precision).isFinite = true)) ∧
      ∀ light, context.node.kind = .light light →
        ∃ attributes, context.attributes transform = .ok attributes ∧
          (∀ key x, light.number? key = some x →
            ((Light.ofKind light.kind).number? key).isSome = true →
            (attributes.setting? key ((Light.ofKind light.kind).number? key) =
                some (roundTo x precision) ↔
              (roundTo x precision).isFinite = true ∧
                (key = .intensity → differs x precision 0.0 = true))) ∧
          ∀ angle, light.angle = some angle → light.kind = .spot →
            angle.isFinite = true → (roundTo angle precision).isFinite = true →
            ∃ y, attributes.setting? .angle (Light.ofKind light.kind).angle = some y ∧
              (y = roundTo angle precision ∨ |real y - real angle| ≤ 1 / 100000) := by
  intro precision
  refine ⟨fun camera kind => ?_, fun light kind => ?_⟩
  · obtain ⟨_, attributes, _, printed, _⟩ := exists_attributes transform own (by rw [kind]; rfl)
    refine ⟨attributes, printed, fun key x known => ?_⟩
    obtain ⟨fallback, default, finite, usual, member, written⟩ := exists_lookup_camera known
    rw [default]
    rw [← lookup_camera own kind printed member] at written
    exact setting?_eq_some_iff written finite usual
  · obtain ⟨_, attributes, _, printed, _⟩ := exists_attributes transform own (by rw [kind]; rfl)
    refine ⟨attributes, printed, fun key x known present => ?_,
      fun angle known spot finite finiteRounded => ?_⟩
    · obtain ⟨fallback, finite, usual, member, dark, standard, written⟩ :=
        exists_lookup_light known
      rw [← lookup_light own kind printed member] at written
      by_cases intensity : key = .intensity
      · obtain rfl := intensity
        obtain rfl := dark rfl
        simp only [forall_true_left]
        exact setting?_intensity_iff written
      · obtain ⟨default, same⟩ := Option.isSome_iff_exists.mp present
        rw [same, standard intensity default same]
        exact (setting?_eq_some_iff written finite usual).trans
          (and_iff_left fun different => absurd different intensity).symm
    · rw [spot]
      exact exists_setting_angle (lookup_light own kind printed (by decide)) known finite
        finiteRounded

/-- A spot light with an angle that has a spelling. -/
def lantern : Node :=
  { name := "Lantern"
    kind := .light { Light.ofKind .spot with
      intensity := 2.504, angle := some 0.785398, decay := some 2.0, penumbra := some 0.001 } }

/-- The lantern comes back with two places, and its angle less than a step away. -/
theorem settings_come_back_lantern :
    let context : NodeContext := ⟨lantern, "Lantern", "nodes.Lantern", false, "", {}⟩
    ∃ attributes,
      context.attributes .identity = .ok attributes ∧
        attributes.setting? .intensity (some 1.0) = some 2.5 ∧
        attributes.setting? .decay (some 1.0) = some 2.0 ∧
        attributes.setting? .penumbra (some 0.0) = some 0.0 ∧
        ∃ y, attributes.setting? .angle (some thirdOfPi) = some y ∧
          (y = roundTo 0.785398 2 ∨ |real y - real 0.785398| ≤ 1 / 100000) := by
  intro context
  have own : context.instanced = false := rfl
  obtain ⟨attributes, printed, numbers, angle⟩ :=
    (settings_come_back .identity own).2 _ rfl
  refine ⟨attributes, printed, ?_, ?_, ?_, ?_⟩
  · have same := (numbers .intensity _ rfl (by decide +kernel)).mpr
      ⟨by decide +kernel, fun _ => by decide +kernel⟩
    exact same.trans (by decide +kernel)
  · have same := (numbers .decay _ rfl (by decide +kernel)).mpr
      ⟨by decide +kernel, fun intensity => absurd intensity (by decide)⟩
    exact same.trans (by decide +kernel)
  · have same := (numbers .penumbra _ rfl (by decide +kernel)).mpr
      ⟨by decide +kernel, fun intensity => absurd intensity (by decide)⟩
    exact same.trans (by decide +kernel)
  · exact angle _ rfl rfl (by decide +kernel) (by decide +kernel)

/-- A light without intensity comes back lit, and a plane at the end of the range not at all. -/
theorem settings_do_not_come_back :
    let dark : NodeContext :=
      ⟨{ kind := .light { Light.ofKind .point with intensity := 0.0 } }, "", "", false, "", {}⟩
    let endless : NodeContext :=
      ⟨{ kind := .camera { far := 1e308 } }, "", "", false, "", {}⟩
    roundTo 0.0 2 = 0.0 ∧
      ((dark.attributes .identity).toOption.map fun attributes =>
        attributes.setting? .intensity ((Light.ofKind .point).number? .intensity)) =
          some (some 1.0) ∧
      (1e308 : Float).isFinite = true ∧
      ((endless.attributes .identity).toOption.map fun attributes =>
        attributes.setting? .far (({} : Camera).number? .far)) = some none := by
  decide +kernel

end SceneMarkup.Markup
