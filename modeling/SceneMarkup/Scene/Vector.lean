namespace SceneMarkup.Scene

/-!
# Vectors and local transforms

Components are doubles.  Two vectors agree when their components compare equal
as numbers, so both zeros agree and what is no number agrees with nothing.
-/

/-- Three components. -/
structure Vector where
  x : Float
  y : Float
  z : Float
  deriving Repr, DecidableEq, Inhabited

namespace Vector

/-- The vector without extent. -/
def zero : Vector := ⟨0.0, 0.0, 0.0⟩

/-- The vector that scales nothing. -/
def one : Vector := ⟨1.0, 1.0, 1.0⟩

/-- The upward unit vector. -/
def up : Vector := ⟨0.0, 1.0, 0.0⟩

/-- Apply a function to every component. -/
def map (f : Float → Float) (v : Vector) : Vector :=
  ⟨f v.x, f v.y, f v.z⟩

/-- Euclidean length, summed from the first component on. -/
def length (v : Vector) : Float :=
  Float.sqrt (v.x * v.x + v.y * v.y + v.z * v.z)

/-- Componentwise numeric equality. -/
def agrees (v w : Vector) : Bool :=
  Float.beq v.x w.x && Float.beq v.y w.y && Float.beq v.z w.z

end Vector

/-- A local transform; the rotation holds angles about x, y and z in radians. -/
structure Transform where
  position : Vector
  rotation : Vector
  scale : Vector
  deriving Repr, DecidableEq

/-- The transform that moves nothing. -/
def Transform.identity : Transform :=
  ⟨.zero, .zero, .one⟩

instance : Inhabited Transform := ⟨.identity⟩

end SceneMarkup.Scene
