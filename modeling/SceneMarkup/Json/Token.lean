import SceneMarkup.Json.Literal

namespace SceneMarkup.Json

/-!
# Tokens of a JSON text

The scanner is an automaton over characters: one step a character, so reading
ends with the text.  A string whose escapes leave a surrogate without its
partner, or which has bytes that belong to no character, is a token but no text.
-/

/-- What stands between the quotes of a string. -/
inductive Wording
  | text (text : String)
  /-- An escape leaves a surrogate without its partner. -/
  | unpaired
  /-- A byte belongs to no character. -/
  | garbled
  deriving Repr, DecidableEq

/-- The text of a string that has one. -/
def Wording.text? : Wording → Option String
  | .text content => some content
  | _ => none

/-- A token. -/
inductive Token
  | openArray
  | closeArray
  | openObject
  | closeObject
  | comma
  | colon
  | null
  | bool (flag : Bool)
  | number (literal : Literal)
  | text (wording : Wording)
  deriving Repr, DecidableEq

/--
Where the scanner stands; what it has gathered is held backwards, with `none` for a byte that
belongs to no character.
-/
inductive Scan
  | between
  | word (letters : List Char)
  | number (text : List Char)
  | text (units : List (Option Nat))
  | escape (units : List (Option Nat))
  | hex (units : List (Option Nat)) (left : Nat) (code : Nat)
  deriving Repr, DecidableEq

/-- Join surrogate pairs; `none` when a surrogate is left over. -/
def charsOfUnits? : List Nat → Option (List Char)
  | [] => some []
  | unit :: rest =>
      if 0xd800 ≤ unit ∧ unit < 0xdc00 then
        match rest with
        | low :: rest =>
            if 0xdc00 ≤ low ∧ low < 0xe000 then
              (charsOfUnits? rest).map
                (Char.ofNat (0x10000 + (unit - 0xd800) * 0x400 + (low - 0xdc00)) :: ·)
            else none
        | [] => none
      else if 0xdc00 ≤ unit ∧ unit < 0xe000 then none
      else (charsOfUnits? rest).map (Char.ofNat unit :: ·)

/-- The token of gathered letters. -/
def wordToken? (letters : List Char) : Option Token :=
  match String.ofList letters.reverse with
  | "null" => some .null
  | "true" => some (.bool true)
  | "false" => some (.bool false)
  | _ => none

/-- The token of gathered number characters. -/
def numberToken? (text : List Char) : Option Token :=
  (Literal.ofChars? text.reverse).map .number

/-- What gathered string units say. -/
def wordingOf (units : List (Option Nat)) : Wording :=
  match units.reverse.mapM id with
  | none => .garbled
  | some units =>
      match charsOfUnits? units with
      | some characters => .text (String.ofList characters)
      | none => .unpaired

/-- Blanks between tokens. -/
def isSpace (character : Char) : Bool :=
  character == ' ' || character == '\n' || character == '\t' || character == '\r'

/-- Characters of which number literals are made. -/
def isNumberChar (character : Char) : Bool :=
  character.isDigit || character == '-' || character == '+' || character == '.'
    || character == 'e' || character == 'E'

/-- The unit of a one-letter escape. -/
def escapeUnit? (character : Char) : Option Nat :=
  match character with
  | '"' => some 0x22
  | '\\' => some 0x5c
  | '/' => some 0x2f
  | 'b' => some 0x08
  | 'f' => some 0x0c
  | 'n' => some 0x0a
  | 'r' => some 0x0d
  | 't' => some 0x09
  | _ => none

/-- The value of a hexadecimal digit of either case. -/
def hexValue? (character : Char) : Option Nat :=
  if character.isDigit then some (character.toNat - 48)
  else if 'a' ≤ character ∧ character ≤ 'f' then some (character.toNat - 87)
  else if 'A' ≤ character ∧ character ≤ 'F' then some (character.toNat - 55)
  else none

/-- A scanner position and the tokens before it, last token first. -/
structure Scanner where
  scan : Scan
  tokens : List Token
  deriving Repr, DecidableEq

namespace Scanner

/-- Take a character that starts a token, is one, or separates two. -/
def start? (tokens : List Token) (character : Char) : Option Scanner :=
  if isSpace character then some ⟨.between, tokens⟩
  else
    match character with
    | '[' => some ⟨.between, .openArray :: tokens⟩
    | ']' => some ⟨.between, .closeArray :: tokens⟩
    | '\x7b' => some ⟨.between, .openObject :: tokens⟩
    | '\x7d' => some ⟨.between, .closeObject :: tokens⟩
    | ',' => some ⟨.between, .comma :: tokens⟩
    | ':' => some ⟨.between, .colon :: tokens⟩
    | '"' => some ⟨.text [], tokens⟩
    | _ =>
        if character.isDigit || character == '-' then some ⟨.number [character], tokens⟩
        else if character.isLower then some ⟨.word [character], tokens⟩
        else none

/-- Take one character. -/
def take? (scanner : Scanner) (character : Char) : Option Scanner :=
  match scanner.scan with
  | .between => start? scanner.tokens character
  | .word letters =>
      if character.isLower then some ⟨.word (character :: letters), scanner.tokens⟩
      else (wordToken? letters).bind fun token => start? (token :: scanner.tokens) character
  | .number text =>
      if isNumberChar character then some ⟨.number (character :: text), scanner.tokens⟩
      else (numberToken? text).bind fun token => start? (token :: scanner.tokens) character
  | .text units =>
      if character = '"' then some ⟨.between, Token.text (wordingOf units) :: scanner.tokens⟩
      else if character = '\\' then some ⟨.escape units, scanner.tokens⟩
      else if character.toNat < 32 then none
      else some ⟨.text (some character.toNat :: units), scanner.tokens⟩
  | .escape units =>
      if character = 'u' then some ⟨.hex units 4 0, scanner.tokens⟩
      else (escapeUnit? character).map fun unit => ⟨.text (some unit :: units), scanner.tokens⟩
  | .hex units left code =>
      (hexValue? character).map fun digit =>
        let code := 16 * code + digit
        if left ≤ 1 then ⟨.text (some code :: units), scanner.tokens⟩
        else ⟨.hex units (left - 1) code, scanner.tokens⟩

/-- Take a character, or a byte that belongs to none, which may stand in a string only. -/
def step? (scanner : Scanner) : Option Char → Option Scanner
  | some character => scanner.take? character
  | none =>
      match scanner.scan with
      | .text units => some ⟨.text (none :: units), scanner.tokens⟩
      | _ => none

/-- Close the last token at the end of the text; a string must be closed already. -/
def finish? (scanner : Scanner) : Option (List Token) :=
  match scanner.scan with
  | .between => some scanner.tokens.reverse
  | .word letters => (wordToken? letters).map fun token => (token :: scanner.tokens).reverse
  | .number text => (numberToken? text).map fun token => (token :: scanner.tokens).reverse
  | _ => none

end Scanner

/-- The tokens of a text, if it is made of tokens and blanks. -/
def tokens? (text : List (Option Char)) : Option (List Token) :=
  (text.foldlM Scanner.step? ⟨.between, []⟩).bind Scanner.finish?

end SceneMarkup.Json
