namespace SceneMarkup.Decimal

/-!
# Rounding to a number of decimal places

Rounding scales by a power of ten, rounds to a whole number, halves away from
zero, and scales back; every step is a floating-point operation of its own, so
large values and large precisions can leave the finite range.
-/

/-- The largest magnitude below which a double can have a fraction. -/
def wholeLimit : Float := 4503599627370496.0

/-- The nearest whole number to a magnitude below the limit, a half going up. -/
def roundMagnitude (magnitude : Float) : Float :=
  let whole := magnitude.toUInt64.toFloat
  if magnitude - whole < 0.5 then whole else whole + 1.0

/-- The nearest whole number, a half going away from zero. -/
def roundHalfAway (x : Float) : Float :=
  if x.abs < wholeLimit then
    if x < 0.0 then -(roundMagnitude (-x)) else roundMagnitude x
  else x

/-- Square and multiply: `product * base ^ n`, rounded at every step. -/
def powerLoop (base product : Float) (n : Nat) : Float :=
  let product := if n % 2 = 1 then product * base else product
  if n / 2 = 0 then product else powerLoop (base * base) product (n / 2)
termination_by n
decreasing_by omega

/-- A precision read as a signed exponent: the upper half of the range is negative. -/
def places (precision : UInt32) : Int :=
  precision.toInt32.toInt

/-- The power of ten that a precision scales by. -/
def scaleFactor (precision : UInt32) : Float :=
  let exponent := places precision
  let power := powerLoop 10.0 1.0 exponent.natAbs
  if exponent < 0 then 1.0 / power else power

/-- Round to a number of decimal places.  Negative zero comes back as zero. -/
def roundTo (x : Float) (precision : UInt32) : Float :=
  let factor := scaleFactor precision
  let rounded := roundHalfAway (x * factor) / factor
  if rounded == 0.0 then 0.0 else rounded

/-- The whole part of a double, held inside the signed 64-bit range; zero for what is no number. -/
def saturated (x : Float) : Int :=
  if x.isNaN then 0
  else if x < 0.0 then
    if x ≤ -9223372036854775808.0 then -9223372036854775808 else -((-x).toUInt64.toNat : Int)
  else if 9223372036854775808.0 ≤ x then 9223372036854775807 else (x.toUInt64.toNat : Int)

/-- An angle counted in steps of `0.00001`. -/
def angleSteps (x : Float) : Int :=
  saturated (roundHalfAway (x * 100000.0))

/-- Whether a whole number has a place in sixty-four bits with a sign. -/
def fitsWord (n : Int) : Bool :=
  -9223372036854775808 ≤ n && n ≤ 9223372036854775807

/-- A whole number cut to sixty-four bits with a sign. -/
def wrapped (n : Int) : Int :=
  (Int64.ofInt n).toInt

/-- What has a place is not changed by the cut. -/
theorem wrapped_of_fitsWord
    {n : Int}
    (fits : fitsWord n = true) :
    wrapped n = n := by
  simp only [fitsWord, Bool.and_eq_true, decide_eq_true_eq] at fits
  exact Int64.toInt_ofInt_of_le (by omega) (by omega)

/-- The magnitude of a count, cut to sixty-four bits again: the least count is its own. -/
def wrappedMagnitude (count : Int) : Int :=
  wrapped count.natAbs

/-- Whether the magnitude of a count has no place in sixty-four bits, where a run with checked
arithmetic stops. -/
def overflows (count : Int) : Bool :=
  !fitsWord count.natAbs

end SceneMarkup.Decimal
