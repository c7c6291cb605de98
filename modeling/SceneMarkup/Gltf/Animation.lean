import SceneMarkup.Gltf.Accessor

namespace SceneMarkup.Gltf

open Json (Tree Record)

/-!
# Animations

A channel drives one property of a node along the key frames of a sampler.
-/

/-- How values between key frames are found. -/
inductive Interpolation
  | linear
  | step
  | cubicSpline
  deriving Repr, DecidableEq

/-- The interpolation with the given name. -/
def Interpolation.ofName? (name : String) : Option Interpolation :=
  match name with
  | "LINEAR" => some .linear
  | "STEP" => some .step
  | "CUBICSPLINE" => some .cubicSpline
  | _ => none

/-- A channel; nobody promises that its node exists. -/
structure Channel where
  sampler : Nat
  node : Nat
  deriving Repr, DecidableEq

/-- Times, and a value for each time. -/
structure KeyFrames where
  input : Nat
  output : Nat
  interpolation : Option Interpolation
  deriving Repr, DecidableEq

/-- An animation. -/
structure Animation where
  name : Option String
  channels : List Channel
  samplers : List KeyFrames
  deriving Repr, DecidableEq

namespace Channel

/-- Read the node that a channel drives. -/
def targetOfTree? (tree : Tree) : Option Nat := do
  let record ← Record.ofTree? ["extensions", "extras", "node", "path"] 4 tree
  let _ ← Additions.extrasAlone? record
  let _ ← record.required? "path" Tree.text?
  record.required? "node" word?

/-- Read a channel. -/
def ofTree? (tree : Tree) : Option Channel := do
  let record ← Record.ofTree? ["sampler", "target", "extensions", "extras"] 2 tree
  let _ ← Additions.ofRecord? record 5 []
  return ⟨← record.required? "sampler" word?, ← record.required? "target" targetOfTree?⟩

end Channel

namespace KeyFrames

/-- Read a sampler. -/
def ofTree? (tree : Tree) : Option KeyFrames := do
  let record ← Record.ofTree? ["extensions", "extras", "input", "interpolation", "output"] 5 tree
  let _ ← Additions.ofRecord? record 5 []
  return {
    input := ← record.required? "input" word?
    output := ← record.required? "output" word?
    interpolation := ←
      record.given? "interpolation" (some .linear) (named? Interpolation.ofName?) }

end KeyFrames

namespace Animation

/-- Read an animation. -/
def ofTree? (tree : Tree) : Option Animation := do
  let record ← Record.ofTree? ["extensions", "extras", "channels", "name", "samplers"] 5 tree
  let _ ← Additions.ofRecord? record 3 []
  return {
    name := ← record.optional? "name" Tree.text?
    channels := ← record.required? "channels" (Tree.list? Channel.ofTree?)
    samplers := ← record.required? "samplers" (Tree.list? KeyFrames.ofTree?) }

end Animation

end SceneMarkup.Gltf
