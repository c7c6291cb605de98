namespace SceneMarkup.Filters

/-!
# Texts as octets

Filters work on octets, whatever these encode.  An octet is held as the
character with its code, so every character of such a text is below 256.
-/

/-- A text of octets. -/
abbrev Octets := List Char

namespace Octets

/-- The octets of some bytes. -/
def ofBytes (bytes : ByteArray) : Octets :=
  bytes.toList.map fun byte => Char.ofNat byte.toNat

/-- The octets that encode a text. -/
def ofText (text : String) : Octets :=
  ofBytes text.toUTF8

/-- The bytes of octets. -/
def toBytes (octets : Octets) : ByteArray :=
  (octets.map fun octet => UInt8.ofNat octet.toNat).toByteArray

/-- The text that octets encode; no text if they encode none. -/
def toText (octets : Octets) : String :=
  (String.fromUTF8? octets.toBytes).getD ""

/-- The octets of a natural number in decimal digits. -/
def ofNat (number : Nat) : Octets :=
  Nat.toDigits 10 number

/-- A text cut at every octet `mark`, after pieces found before, which are held backwards. -/
def cutAfter (mark : Char) (pieces : List Octets) (piece : Octets) : Octets → List Octets
  | [] => (piece.reverse :: pieces).reverse
  | octet :: rest =>
      if octet = mark then cutAfter mark (piece.reverse :: pieces) [] rest
      else cutAfter mark pieces (octet :: piece) rest

/-- The pieces of a text between octets `mark`. -/
def cut (mark : Char) (octets : Octets) : List Octets :=
  cutAfter mark [] [] octets

/-- The lines of a text, each ended by `mark`; the end of the text ends the last one as well. -/
def lines (mark : Char) (octets : Octets) : List Octets :=
  let pieces := cut mark octets
  if pieces.getLast? = some [] then pieces.dropLast else pieces

/-- A number at the right end of a column. -/
def column (width number : Nat) : Octets :=
  let digits := ofNat number
  List.replicate (width - digits.length) ' ' ++ digits

/-- Whether an octet is a letter or a digit of ASCII. -/
def isWordOctet (octet : Char) : Bool :=
  octet.isAlphanum || octet == '_'

/-- Whether an octet is a blank of ASCII. -/
def isBlankOctet (octet : Char) : Bool :=
  octet == ' ' || ('\t' ≤ octet && octet ≤ '\r')

/-- Whether an octet shows as a character of ASCII. -/
def isShown (octet : Char) : Bool :=
  ' ' ≤ octet && octet ≤ '~'

end Octets

end SceneMarkup.Filters
