import SceneMarkup.Decimal.Binary

namespace SceneMarkup.Decimal

/-!
# The shortest decimal of a double

A decimal names a double when it lies between the midpoints to its two
neighbours, midpoints included when the mantissa is even.  Grids of one, two,
... seventeen significant digits are tried in turn; of a grid only the two
points beside the value can name it, and of two the nearer one is taken.  When
both are equally near, a rule given with the request decides.
-/

/-- Which of two equally near decimals is taken. -/
inductive Tie
  | upper
  | even
  deriving Repr, DecidableEq

/-- `digits * 10 ^ exponent`, where `digits` does not end in a zero unless it is zero. -/
structure Digits where
  digits : Nat
  exponent : Int
  deriving Repr, DecidableEq

/-- Move the zeros at the end of `digits` into the exponent. -/
def Digits.normal (digits : Nat) (exponent : Int) : Digits :=
  if digits = 0 then ⟨0, 0⟩
  else if digits % 10 = 0 then Digits.normal (digits / 10) (exponent + 1)
  else ⟨digits, exponent⟩
termination_by digits
decreasing_by omega

/-- The midpoints to the neighbours, in units of a quarter of the last binary place. -/
def Binary.midpoints (magnitude : Binary) : Nat × Nat :=
  (4 * magnitude.mantissa - (if magnitude.narrowBelow then 1 else 2), 4 * magnitude.mantissa + 2)

/-- Whether `point * 10 ^ power` names the double. -/
def Binary.isNamedBy (magnitude : Binary) (point : Nat) (power : Int) : Bool :=
  let (lower, upper) := magnitude.midpoints
  let quarter := magnitude.exponent - 2
  let decimal := point * Nat.pow 10 power.toNat * Nat.pow 2 (-quarter).toNat
  let unit := Nat.pow 2 quarter.toNat * Nat.pow 10 (-power).toNat
  if magnitude.mantissa % 2 = 0 then
    lower * unit ≤ decimal && decimal ≤ upper * unit
  else
    lower * unit < decimal && decimal < upper * unit

/-- Whether the lower of two neighbouring points is taken, `twice` the distance to it being
compared with their gap. -/
def Tie.takesLower (tie : Tie) (twice gap lower : Nat) : Bool :=
  twice < gap || (twice == gap && tie == .even && lower % 2 == 0)

/-- The point of the grid `10 ^ power` that names the double, if there is one. -/
def Binary.onGrid (magnitude : Binary) (tie : Tie) (power : Int) : Option Nat :=
  let (numerator, denominator) := magnitude.scaled (-power)
  let below := numerator / denominator
  let above := below + 1
  match magnitude.isNamedBy below power, magnitude.isNamedBy above power with
  | true, true =>
      if tie.takesLower (2 * (numerator % denominator)) denominator below then some below
      else some above
  | true, false => some below
  | false, true => some above
  | false, false => none

/-- A power of ten that is not above the value, one too small at most. -/
def Binary.leadingGuess (magnitude : Binary) : Int :=
  let bits : Int := (magnitude.mantissa.log2 : Int) + magnitude.exponent
  (bits * 30103 - 30103).fdiv 100000

/-- The exponent of the first significant digit. -/
def Binary.leading (magnitude : Binary) : Int :=
  let guess := magnitude.leadingGuess
  let reaches (power : Int) : Bool :=
    let (numerator, denominator) := magnitude.scaled (-power)
    denominator ≤ numerator
  if reaches (guess + 2) then guess + 2 else if reaches (guess + 1) then guess + 1 else guess

/-- The shortest decimal that names the double; of those, one nearest to it. -/
def Binary.shortest (magnitude : Binary) (tie : Tie) : Digits :=
  if magnitude.mantissa = 0 then ⟨0, 0⟩
  else
    let leading := magnitude.leading
    let grids := (List.range 17).map fun (extra : Nat) => leading - (extra : Int)
    let named (power : Int) : Option (Nat × Int) :=
      (magnitude.onGrid tie power).map fun point => (point, power)
    match grids.findSome? named with
    | some (point, power) => Digits.normal point power
    | none =>
        let (numerator, denominator) := magnitude.scaled (16 - leading)
        Digits.normal (numerator / denominator) (leading - 16)

end SceneMarkup.Decimal
