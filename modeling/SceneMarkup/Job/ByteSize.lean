namespace SceneMarkup.Job

/-!
# Sizes in bytes

A size is written in the largest unit that it reaches, with a fixed number of
decimal places.  A size halfway between two texts takes the one whose last digit
is even.
-/

/-- A unit of sizes: how many bytes it has, and how sizes in it are written. -/
structure SizeUnit where
  bytes : Nat
  places : Nat
  mark : String
  deriving Repr, DecidableEq

/-- The units above single bytes, the largest first. -/
def sizeUnits : List SizeUnit :=
  [⟨1024 * 1024 * 1024, 2, "GB"⟩, ⟨1024 * 1024, 1, "MB"⟩, ⟨1024, 1, "KB"⟩]

/-- The integer nearest to `numerator / denominator`, and the even one of two. -/
def nearestQuotient (numerator denominator : Nat) : Nat :=
  let quotient := numerator / denominator
  let twice := 2 * (numerator % denominator)
  if twice < denominator then quotient
  else if denominator < twice then quotient + 1
  else quotient + quotient % 2

/-- A number of `10 ^ places` parts with a point in front of its last `places` digits. -/
def pointText (places scaled : Nat) : String :=
  let fraction := toString (scaled % Nat.pow 10 places)
  let zeros := String.ofList (List.replicate (places - fraction.length) '0')
  toString (scaled / Nat.pow 10 places) ++ "." ++ zeros ++ fraction

/-- A size as a text. -/
def sizeText (size : Nat) : String :=
  match sizeUnits.find? fun unit => unit.bytes ≤ size with
  | some unit =>
      pointText unit.places (nearestQuotient (size * Nat.pow 10 unit.places) unit.bytes) ++ unit.mark
  | none => toString size ++ "B"

end SceneMarkup.Job
