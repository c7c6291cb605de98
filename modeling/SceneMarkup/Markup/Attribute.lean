import SceneMarkup.Json.Writer

namespace SceneMarkup.Markup

/-!
# Attributes

An attribute is a key with a value of one of three forms.  The keys that a node
can carry are listed; an element may carry others, such as its name.
-/

/-- The form and content of an attribute's value. -/
inductive AttributeValue
  /-- The bare key stands for truth. -/
  | flag
  /-- An expression in braces. -/
  | expression (text : String)
  /-- A text between quotation marks. -/
  | text (text : String)
  deriving Repr, DecidableEq

/-- Text between braces. -/
def braced (text : String) : String :=
  "\x7b" ++ text ++ "\x7d"

/-- A written attribute: key and value. -/
def AttributeValue.written (value : AttributeValue) (key : String) : String :=
  match value with
  | .flag => key
  | .expression content => key ++ "=" ++ braced content
  | .text content => key ++ "=\"" ++ content ++ "\""

/-- The attributes that a node can carry. -/
inductive AttributeKey
  | makeDefault
  | zoom
  | far
  | near
  | fov
  | castShadow
  | receiveShadow
  | args
  | instanceMatrix
  | geometry
  | material
  | skeleton
  | visible
  | morphTargetDictionary
  | morphTargetInfluences
  | intensity
  | angle
  | penumbra
  | decay
  | distance
  | up
  | color
  | position
  | rotation
  | scale
  | userData
  deriving Repr, DecidableEq

namespace AttributeKey

/-- The key as written. -/
def name : AttributeKey → String
  | .makeDefault => "makeDefault"
  | .zoom => "zoom"
  | .far => "far"
  | .near => "near"
  | .fov => "fov"
  | .castShadow => "castShadow"
  | .receiveShadow => "receiveShadow"
  | .args => "args"
  | .instanceMatrix => "instanceMatrix"
  | .geometry => "geometry"
  | .material => "material"
  | .skeleton => "skeleton"
  | .visible => "visible"
  | .morphTargetDictionary => "morphTargetDictionary"
  | .morphTargetInfluences => "morphTargetInfluences"
  | .intensity => "intensity"
  | .angle => "angle"
  | .penumbra => "penumbra"
  | .decay => "decay"
  | .distance => "distance"
  | .up => "up"
  | .color => "color"
  | .position => "position"
  | .rotation => "rotation"
  | .scale => "scale"
  | .userData => "userData"

/-- Position, rotation and scale. -/
def isTransform : AttributeKey → Bool
  | .position => true
  | .rotation => true
  | .scale => true
  | _ => false

end AttributeKey

/-- An attribute of a node. -/
structure Attribute where
  key : AttributeKey
  value : AttributeValue
  deriving Repr, DecidableEq

namespace Attribute

/-- An attribute that is present or not. -/
def flag (key : AttributeKey) : Attribute :=
  ⟨key, .flag⟩

/-- An attribute whose value is an expression. -/
def expression (key : AttributeKey) (text : String) : Attribute :=
  ⟨key, .expression text⟩

/-- An attribute whose value is a text. -/
def text (key : AttributeKey) (text : String) : Attribute :=
  ⟨key, .text text⟩

/-- The attribute as written. -/
def written (entry : Attribute) : String :=
  entry.value.written entry.key.name

end Attribute

/-- The attributes of one node, in the order written. -/
abbrev Attributes := List Attribute

namespace Attributes

/-- Attributes as written, with blanks between them. -/
def written (attributes : Attributes) : String :=
  " ".intercalate (attributes.map Attribute.written)

/-- There is exactly one attribute and it has the given key. -/
def isOnly (attributes : Attributes) (key : AttributeKey) : Bool :=
  attributes.map (·.key) == [key]

/-- Some attribute is a position, rotation or scale. -/
def hasTransform (attributes : Attributes) : Bool :=
  attributes.any fun entry => entry.key.isTransform

/-- There are attributes and each is a position, rotation or scale. -/
def isOnlyTransform (attributes : Attributes) : Bool :=
  !attributes.isEmpty && attributes.all fun entry => entry.key.isTransform

end Attributes

end SceneMarkup.Markup
