import SceneMarkup.Json.Token

namespace SceneMarkup.Text

/-!
# Contents of addresses

An address may hold data itself or name a file.  A percent sign and two
hexadecimal digits in it stand for one byte; any other percent sign stands for
itself.

Data are written in base 64: three bytes as four digits of six bits each.  The
last group may stand for one or two bytes; then it may be filled up with equals
signs, and the bits that say nothing are zero.
-/

/-- The value of a digit. -/
def base64Value? (digit : Char) : Option Nat :=
  let code := digit.toNat
  if 'A' ≤ digit ∧ digit ≤ 'Z' then some (code - 65)
  else if 'a' ≤ digit ∧ digit ≤ 'z' then some (code - 71)
  else if '0' ≤ digit ∧ digit ≤ '9' then some (code + 4)
  else if digit = '+' then some 62
  else if digit = '/' then some 63
  else none

/-- The byte of two digits, whose last four bits are zero. -/
def oneByte? (first second : Char) : Option (List UInt8) := do
  let a ← base64Value? first
  let b ← base64Value? second
  if b % 16 = 0 then some [UInt8.ofNat (a * 4 + b / 16)] else none

/-- The bytes of three digits, whose last two bits are zero. -/
def twoBytes? (first second third : Char) : Option (List UInt8) := do
  let a ← base64Value? first
  let b ← base64Value? second
  let c ← base64Value? third
  if c % 4 = 0 then some [UInt8.ofNat (a * 4 + b / 16), UInt8.ofNat (b % 16 * 16 + c / 4)]
  else none

/-- The bytes of the groups of a text. -/
def ofBase64Chars? : List Char → Option (List UInt8)
  | [] => some []
  | [first, second] => oneByte? first second
  | [first, second, '='] => oneByte? first second
  | [first, second, '=', '='] => oneByte? first second
  | [first, second, third] => twoBytes? first second third
  | [first, second, third, '='] => twoBytes? first second third
  | first :: second :: third :: fourth :: rest => do
      let a ← base64Value? first
      let b ← base64Value? second
      let c ← base64Value? third
      let d ← base64Value? fourth
      let bytes ← ofBase64Chars? rest
      return UInt8.ofNat (a * 4 + b / 16) :: UInt8.ofNat (b % 16 * 16 + c / 4)
        :: UInt8.ofNat (c % 4 * 64 + d) :: bytes
  | _ => none

/-- The bytes that a text stands for. -/
def ofBase64? (text : String) : Option (List UInt8) :=
  ofBase64Chars? text.toList

/-- Replace every escape among bytes by the byte that it stands for. -/
def percentDecoded : List UInt8 → List UInt8
  | [] => []
  | [first] => [first]
  | [first, second] => [first, second]
  | first :: second :: third :: rest =>
      if first = 0x25 then
        match digit? second, digit? third with
        | some high, some low => UInt8.ofNat (high * 16 + low) :: percentDecoded rest
        | _, _ => first :: percentDecoded (second :: third :: rest)
      else first :: percentDecoded (second :: third :: rest)
where
  digit? (byte : UInt8) : Option Nat :=
    Json.hexValue? (Char.ofNat byte.toNat)

/-- A text with its escapes replaced, if the bytes are a text again. -/
def ofPercent? (text : String) : Option String :=
  String.fromUTF8? (percentDecoded text.toUTF8.toList).toByteArray

end SceneMarkup.Text
