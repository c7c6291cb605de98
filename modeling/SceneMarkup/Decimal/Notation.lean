import SceneMarkup.Decimal.Shortest

namespace SceneMarkup.Decimal

/-!
# Decimal notations

A notation says how shortest digits are laid out: which powers of ten are
written positionally, whether a whole number keeps a fraction, how an exponent
is marked, and which of two equally near decimals is written.
-/

/-- The choices that tell one layout of digits from another. -/
structure Notation where
  /-- Powers of ten of the first digit that are written positionally. -/
  positional : Int → Bool
  /-- A positional number always has a point. -/
  keepsPoint : Bool
  /-- An exponent that is not negative carries a plus sign. -/
  plus : Bool
  /-- Of two shortest decimals equally near the value, the one that is written. -/
  tie : Tie

/-- The decimal digits of a natural number, most significant first. -/
def digitChars (n : Nat) : List Char :=
  Nat.toDigits 10 n

/-- A text of zeros. -/
def zeros (count : Nat) : List Char :=
  List.replicate count '0'

/-- Digits with a point after the first `point` of them; zeros fill the gaps. -/
def positionalText (keepsPoint : Bool) (digits : List Char) (point : Int) : List Char :=
  let fraction (text : List Char) : List Char :=
    if text.isEmpty then (if keepsPoint then ['.', '0'] else []) else '.' :: text
  if point ≤ 0 then '0' :: fraction (zeros (-point).toNat ++ digits)
  else
    let whole := point.toNat
    if digits.length ≤ whole then digits ++ zeros (whole - digits.length) ++ fraction []
    else digits.take whole ++ fraction (digits.drop whole)

/-- Digits with a point after the first, and the power of ten of the first digit. -/
def exponentText (plus : Bool) (digits : List Char) (power : Int) : List Char :=
  let sign : List Char := if power < 0 then ['-'] else if plus then ['+'] else []
  let tail := digits.drop 1
  digits.take 1 ++ (if tail.isEmpty then [] else '.' :: tail) ++ ['e'] ++ sign
    ++ digitChars power.natAbs

/-- Shortest digits in a notation; zero is always positional. -/
def Notation.digitsText (style : Notation) (value : Digits) : List Char :=
  let digits := digitChars value.digits
  let power : Int := value.exponent + digits.length - 1
  if value.digits = 0 || style.positional power then
    positionalText style.keepsPoint digits (power + 1)
  else exponentText style.plus digits power

/-- The text of a double: its sign, if it has one, and its shortest digits. -/
def Notation.text (style : Notation) (x : Float) : String :=
  match Reading.ofFloat x with
  | .notANumber => "NaN"
  | .infinite negative => if negative then "-inf" else "inf"
  | .finite negative magnitude =>
      let digits := style.digitsText (magnitude.shortest style.tie)
      String.ofList (if negative then '-' :: digits else digits)

/-- Never an exponent, and no point without a fraction: `1`, `0.5`, `100000000000000000000`. -/
def plain : Notation where
  positional := fun _ => true
  keepsPoint := false
  plus := false
  tie := .upper

/-- Positional from `1e-5` up to, not including, `1e16`, always with a fraction: `1.0`, `1e+16`. -/
def interchange : Notation where
  positional := fun power => -5 ≤ power && power < 16
  keepsPoint := true
  plus := true
  tie := .even

/-- Positional from `1e-4` up to, not including, `1e16`, always with a fraction: `1.0`, `1e16`. -/
def diagnostic : Notation where
  positional := fun power => -4 ≤ power && power < 16
  keepsPoint := true
  plus := false
  tie := .upper

end SceneMarkup.Decimal
