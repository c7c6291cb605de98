namespace SceneMarkup.Decimal

/-!
# Doubles as integers times powers of two

A double is not a number, an infinity, or exactly `± mantissa * 2 ^ exponent`.
All decimal texts start from this exact reading.
-/

/-- The exact magnitude of a finite double. -/
structure Binary where
  mantissa : Nat
  exponent : Int
  /-- The gap to the next smaller double is half the gap to the next larger one. -/
  narrowBelow : Bool
  deriving Repr, DecidableEq

/-- What the bits of a double stand for. -/
inductive Reading
  | notANumber
  | infinite (negative : Bool)
  | finite (negative : Bool) (magnitude : Binary)
  deriving Repr, DecidableEq

/-- How many values the fifty-two bits of the fraction can take. -/
def fractionCount : Nat := 4503599627370496

/-- How many values the eleven bits of the exponent can take. -/
def exponentCount : Nat := 2048

/-- Split the bits into sign, eleven bits of exponent and fifty-two bits of fraction. -/
def Reading.ofFloat (x : Float) : Reading :=
  let bits : Nat := x.toBits.toNat
  let negative := bits / (fractionCount * exponentCount) == 1
  let biased : Nat := bits / fractionCount % exponentCount
  let fraction : Nat := bits % fractionCount
  if biased + 1 = exponentCount then
    if fraction = 0 then .infinite negative else .notANumber
  else if biased = 0 then
    .finite negative ⟨fraction, -1074, false⟩
  else
    .finite negative ⟨fractionCount + fraction, (biased : Int) - 1075, fraction == 0 && biased > 1⟩

/-- A magnitude as a fraction of natural numbers, after scaling by a power of ten. -/
def Binary.scaled (magnitude : Binary) (power : Int) : Nat × Nat :=
  (magnitude.mantissa * Nat.pow 2 magnitude.exponent.toNat * Nat.pow 10 power.toNat,
    Nat.pow 2 (-magnitude.exponent).toNat * Nat.pow 10 (-power).toNat)

end SceneMarkup.Decimal
