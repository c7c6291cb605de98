namespace SceneMarkup.Text

/-!
# Bytes as characters

Bytes are read as UTF-8.  A byte that belongs to no character stands for itself
and is told apart from characters, so that nothing of the input is lost.
-/

/-- The characters from `place` on, after those found before; `none` is a byte on its own. -/
def decodedFrom (bytes : ByteArray) (place : Nat) (before : Array (Option Char)) :
    Array (Option Char) :=
  if place < bytes.size then
    match bytes.utf8DecodeChar? place with
    | some character =>
        decodedFrom bytes (place + character.utf8Size) (before.push (some character))
    | none => decodedFrom bytes (place + 1) (before.push none)
  else before
termination_by bytes.size - place
decreasing_by
  · have := character.utf8Size_pos
    omega
  · omega

/-- The characters of some bytes, with `none` for each byte that belongs to no character. -/
def decoded (bytes : ByteArray) : List (Option Char) :=
  (decodedFrom bytes 0 #[]).toList

/-- How many bytes follow the first byte of a character, and the bounds of the second byte. -/
def sequenceShape? (first : UInt8) : Option (Nat × UInt8 × UInt8) :=
  if first < 0xc2 then none
  else if first < 0xe0 then some (1, 0x80, 0xbf)
  else if first = 0xe0 then some (2, 0xa0, 0xbf)
  else if first = 0xed then some (2, 0x80, 0x9f)
  else if first < 0xf0 then some (2, 0x80, 0xbf)
  else if first = 0xf0 then some (3, 0x90, 0xbf)
  else if first < 0xf4 then some (3, 0x80, 0xbf)
  else if first = 0xf4 then some (3, 0x80, 0x8f)
  else none

/-- Whether a byte is none of the first ones of a character. -/
def isContinuation (byte : UInt8) : Bool :=
  0x80 ≤ byte && byte ≤ 0xbf

/-- The number of bytes after the first one that go on with a character as they should. -/
def continuedSize (first : UInt8) (rest : List UInt8) : Nat :=
  match sequenceShape? first, rest with
  | some (count, low, high), second :: others =>
      if second < low ∨ high < second then 0
      else 1 + ((others.take (count - 1)).takeWhile isContinuation).length
  | _, _ => 0

/-- Why bytes are no text. -/
inductive Garbling
  /-- So many bytes from a place on belong to no character. -/
  | broken (size place : Nat)
  /-- A character that starts at a place is cut short. -/
  | cutShort (place : Nat)
  deriving Repr, DecidableEq

/-- The wording of a garbling. -/
def Garbling.message : Garbling → String
  | .broken size place =>
      "invalid utf-8 sequence of " ++ toString size ++ " bytes from index " ++ toString place
  | .cutShort place => "incomplete utf-8 byte sequence from index " ++ toString place

/-- Why bytes are no text at a place where no character starts. -/
def garblingAt (place : Nat) : List UInt8 → Garbling
  | [] => .cutShort place
  | first :: rest =>
      let continued := continuedSize first rest
      if (sequenceShape? first).isSome ∧ continued = rest.length then .cutShort place
      else .broken (continued + 1) place

/-- The number of bytes before the first one that belongs to no character. -/
def readableSize (bytes : ByteArray) : Nat :=
  ((decoded bytes).takeWhile (·.isSome)).foldl
    (fun size character => size + (character.map Char.utf8Size).getD 0) 0

/-- The text that bytes encode, or why there is none. -/
def textOf (bytes : ByteArray) : Except Garbling String :=
  match String.fromUTF8? bytes with
  | some text => .ok text
  | none =>
      let place := readableSize bytes
      .error (garblingAt place (bytes.toList.drop place))

end SceneMarkup.Text
