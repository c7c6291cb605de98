import SceneMarkup.Decimal.Notation
import SceneMarkup.Json.Value

namespace SceneMarkup.Json

/-!
# Compact JSON text

No blanks are written.  Inside a string only the quotation mark, the backslash
and the control characters are escaped.
-/

/-- One lower-case hexadecimal digit. -/
def hexDigit (n : Nat) : Char :=
  if n < 10 then Char.ofNat (48 + n) else Char.ofNat (87 + n)

/-- The characters that stand for one character inside a string. -/
def escapedChar (character : Char) : List Char :=
  match character with
  | '"' => ['\\', '"']
  | '\\' => ['\\', '\\']
  | '\x08' => ['\\', 'b']
  | '\x0c' => ['\\', 'f']
  | '\n' => ['\\', 'n']
  | '\r' => ['\\', 'r']
  | '\t' => ['\\', 't']
  | _ =>
      let code := character.toNat
      if code < 32 then ['\\', 'u', '0', '0', hexDigit (code / 16), hexDigit (code % 16)]
      else [character]

/-- A string with its quotation marks. -/
def quotedText (text : String) : String :=
  String.ofList ('"' :: text.toList.flatMap escapedChar ++ ['"'])

/-- A number: a whole number by its digits, a double always with a fraction or an exponent. -/
def Number.text : Number → String
  | .integer value => toString value
  | .real value => Decimal.interchange.text value

mutual

/-- The compact text of a value. -/
def Value.compact : Value → String
  | .null => "null"
  | .bool flag => if flag then "true" else "false"
  | .number number => number.text
  | .text text => quotedText text
  | .array items => "[" ++ ",".intercalate (compactItems items) ++ "]"
  | .object members => "\x7b" ++ ",".intercalate (compactMembers members) ++ "\x7d"

/-- The compact texts of the items of an array. -/
def compactItems : List Value → List String
  | [] => []
  | item :: rest => item.compact :: compactItems rest

/-- The compact texts of the members of an object. -/
def compactMembers : List (String × Value) → List String
  | [] => []
  | (key, value) :: rest => (quotedText key ++ ":" ++ value.compact) :: compactMembers rest

end

end SceneMarkup.Json
