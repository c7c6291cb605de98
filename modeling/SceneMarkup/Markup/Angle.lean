import SceneMarkup.Decimal.Notation
import SceneMarkup.Decimal.Rounding

namespace SceneMarkup.Markup

/-!
# Numbers and angles in markup

A number is rounded to the chosen places and written without an exponent.  An
angle that is, to five places, a tenth part or more or up to ten times half a
turn is written with the constant instead.
-/

/-- Half a turn in radians. -/
def pi : Float := 3.141592653589793

/-- A number rounded to `precision` places. -/
def numberText (x : Float) (precision : UInt32) : String :=
  Decimal.plain.text (Decimal.roundTo x precision)

/-- An angle that has a symbolic spelling. -/
inductive SymbolicAngle
  /-- Half a turn divided by a whole number. -/
  | quotient (divisor : Nat)
  /-- Half a turn times a whole number. -/
  | multiple (factor : Nat)
  deriving Repr, DecidableEq

namespace SymbolicAngle

/-- The angles with a symbolic spelling, in the order they are tried. -/
def all : List SymbolicAngle :=
  ((List.range 10).map fun step => .quotient (step + 1))
    ++ ((List.range 9).map fun step => .multiple (step + 2))

/-- The angle in radians. -/
def radians : SymbolicAngle → Float
  | .quotient divisor => pi / (UInt64.ofNat divisor).toFloat
  | .multiple factor => pi * (UInt64.ofNat factor).toFloat

/-- The spelling; half a turn itself stands without a divisor. -/
def text : SymbolicAngle → String
  | .quotient divisor => if divisor = 1 then "Math.PI" else "Math.PI / " ++ toString divisor
  | .multiple factor => "Math.PI * " ++ toString factor

/-- The first angle of the list that has the same magnitude to five places. -/
def ofFloat? (x : Float) : Option SymbolicAngle :=
  all.find? fun angle =>
    Decimal.wrappedMagnitude (Decimal.angleSteps x) == Decimal.angleSteps angle.radians

end SymbolicAngle

/--
An angle in radians, symbolic where it can be.  The magnitude of its count wraps round
in sixty-four bits; a run with checked arithmetic writes nothing and stops where the
count `overflows`, and writes the same text elsewhere.
-/
def angleText (x : Float) (precision : UInt32) : String :=
  match SymbolicAngle.ofFloat? x with
  | some angle => (if x < 0.0 then "-" else "") ++ angle.text
  | none => numberText x precision

end SceneMarkup.Markup
