import SceneMarkup.Json.Value

namespace SceneMarkup.Json

/-!
# Number literals

A literal is kept as it is written and turned into a number only where a number
is needed: a literal that no double can hold is still a literal.  The number is
found quickly rather than exactly: the first digits that fit 64 bits are scaled
by a power of ten in double arithmetic, and the digits after them are dropped.
-/

/-- `± whole . fraction * 10 ^ exponent`, in digits; without a fraction there is no point. -/
structure Literal where
  negative : Bool
  whole : List Char
  fraction : List Char
  exponent : Option Int
  deriving Repr, DecidableEq

/-- The number that a run of decimal digits stands for. -/
def digitsValue (digits : List Char) : Nat :=
  digits.foldl (fun value digit => 10 * value + (digit.toNat - 48)) 0

/-- An exponent after its mark: an optional sign and at least one digit, up to the end. -/
def exponentOf? (text : List Char) : Option Int :=
  let (negative, digits) :=
    match text with
    | '-' :: rest => (true, rest)
    | '+' :: rest => (false, rest)
    | rest => (false, rest)
  if digits.isEmpty || !digits.all Char.isDigit then none
  else
    let magnitude : Int := digitsValue digits
    some (if negative then -magnitude else magnitude)

/-- Append digits to a number until one does not fit 64 bits; what is left starts with that one. -/
def gathered (value : Nat) : List Char → Nat × List Char
  | [] => (value, [])
  | digit :: rest =>
      let next := 10 * value + (digit.toNat - 48)
      if next < UInt64.size then gathered next rest else (value, digit :: rest)

/-- The exponent of the largest power of ten that a double can hold. -/
def greatestPower : Nat := 308

/-- A power of ten, nearest double. -/
def powerOfTen (power : Nat) : Float :=
  Float.ofScientific 1 false power

/-- Divide by a power of ten, the largest one first, until nothing is left to divide. -/
def dividedByPower (value : Float) (power : Nat) : Float :=
  if power ≤ greatestPower then value / powerOfTen power
  else if value == 0.0 then value
  else dividedByPower (value / powerOfTen greatestPower) (power - greatestPower)
termination_by power
decreasing_by
  simp only [greatestPower] at *
  omega

/-- Scale by a power of ten, unless the result is too large for a double. -/
def scaledByPower? (value : Float) (power : Int) : Option Float :=
  if power < 0 then some (dividedByPower value power.natAbs)
  else if value == 0.0 then some value
  else if (greatestPower : Int) < power then none
  else
    let scaled := value * powerOfTen power.toNat
    if scaled.isFinite then some scaled else none

namespace Literal

/-- A literal without its sign: digits without a leading zero, a fraction, an exponent. -/
def ofUnsigned? (negative : Bool) (text : List Char) : Option Literal :=
  let whole := text.takeWhile Char.isDigit
  let afterWhole := text.dropWhile Char.isDigit
  if whole.isEmpty || (whole.head? == some '0' && whole.length != 1) then none
  else
    let (fraction?, rest) :=
      match afterWhole with
      | '.' :: tail => (some (tail.takeWhile Char.isDigit), tail.dropWhile Char.isDigit)
      | _ => (none, afterWhole)
    if fraction? == some [] then none
    else
      let fraction := fraction?.getD []
      match rest with
      | [] => some ⟨negative, whole, fraction, none⟩
      | mark :: tail =>
          if mark = 'e' ∨ mark = 'E' then
            (exponentOf? tail).map fun exponent => ⟨negative, whole, fraction, some exponent⟩
          else none

/-- Read a whole text as a literal. -/
def ofChars? : List Char → Option Literal
  | '-' :: rest => ofUnsigned? true rest
  | text => ofUnsigned? false text

/-- The integer of a literal that has neither a point nor an exponent and is not `-0`. -/
def integer? (literal : Literal) : Option Int :=
  if literal.fraction.isEmpty && literal.exponent.isNone then
    let magnitude := digitsValue literal.whole
    if literal.negative then
      if magnitude != 0 && magnitude ≤ UInt64.size / 2 then some (-(magnitude : Int)) else none
    else if magnitude < UInt64.size then some magnitude
    else none
  else none

/-- The double of a literal, unless it is too large. -/
def real? (literal : Literal) : Option Float :=
  let (leading, leftWhole) := gathered 0 literal.whole
  let (significand, leftFraction) := gathered leading literal.fraction
  let places : Int := (literal.fraction.length : Int) - leftFraction.length
  let power := literal.exponent.getD 0 + leftWhole.length - places
  (scaledByPower? (UInt64.ofNat significand).toFloat power).map fun magnitude =>
    if literal.negative then -magnitude else magnitude

/-- The number of a literal: an integer if 64 bits can hold it, else a double. -/
def number? (literal : Literal) : Option Number :=
  match literal.integer? with
  | some value => some (.integer value)
  | none => literal.real?.map .real

end Literal

end SceneMarkup.Json
