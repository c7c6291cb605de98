import SceneMarkup.Filters.Edit.Fault
import SceneMarkup.Filters.Octets

namespace SceneMarkup.Filters

/-!
# Escapes in scripts

A backslash and a letter stand for an octet that cannot be written itself, or a
backslash, a letter and digits for the octet with that number.
-/

namespace Escape

/-- The octet that a letter after a backslash stands for. -/
def octet? (letter : Char) : Option Char :=
  match letter with
  | 'a' => some '\x07'
  | 'f' => some '\x0c'
  | 'n' => some '\n'
  | 'r' => some '\r'
  | 't' => some '\t'
  | 'v' => some '\x0b'
  | _ => none

/-- The base and the greatest number of the digits after a letter. -/
def digits? (letter : Char) : Option (Nat × Nat) :=
  match letter with
  | 'd' => some (10, 3)
  | 'o' => some (8, 3)
  | 'x' => some (16, 2)
  | _ => none

/-- The value of a digit in a base. -/
def digitValue? (base : Nat) (digit : Char) : Option Nat :=
  let value :=
    if digit.isDigit then digit.toNat - '0'.toNat
    else if 'a' ≤ digit ∧ digit ≤ 'f' then digit.toNat - 'a'.toNat + 10
    else if 'A' ≤ digit ∧ digit ≤ 'F' then digit.toNat - 'A'.toNat + 10
    else base
  if value < base then some value else none

/-- The number that at most so many digits give, how many there are, and what follows them. -/
def number (base : Nat) : Nat → Nat → Octets → Nat × Nat × Octets
  | 0, value, text => (value, 0, text)
  | _, value, [] => (value, 0, [])
  | most + 1, value, digit :: rest =>
      match digitValue? base digit with
      | none => (value, 0, digit :: rest)
      | some further =>
          let (value, count, rest) := number base most (base * value + further) rest
          (value, count + 1, rest)

/-- The octet of a key that is pressed together with the control key. -/
def control (key : Char) : Char :=
  Char.ofNat (key.toUpper.toNat ^^^ 64)

/-- An octet as it is written where backslashes and ampersands have a meaning. -/
def guarded (octet : Char) : Octets :=
  if octet = '\\' ∨ octet = '&' then ['\\', octet] else [octet]

/-- The octets of what stands for one; a pattern gives them the meaning that they have in it. -/
def written (isPattern : Bool) (octet : Char) : Octets :=
  if isPattern then [octet] else guarded octet

/-- Put octets in the place of what stands for them, in at most `steps` steps. -/
def resolvedIn (isPattern : Bool) : Nat → Octets → Except ScriptFault Octets
  | 0, text => .ok text
  | _, [] => .ok []
  | _, ['\\'] => .ok ['\\']
  | steps + 1, '\\' :: letter :: rest =>
      match octet? letter, digits? letter, letter, rest with
      | some octet, _, _, _ => (resolvedIn isPattern steps rest).map (octet :: ·)
      | none, some (base, most), _, _ =>
          let (value, count, after) := number base most 0 rest
          if count = 0 then
            (resolvedIn isPattern steps rest).map fun others => '\\' :: letter :: others
          else
            (resolvedIn isPattern steps after).map
              (written isPattern (Char.ofNat (value % 256)) ++ ·)
      | _, _, 'c', [] => .ok ['\\']
      | _, _, 'c', '\\' :: '\\' :: after =>
          (resolvedIn isPattern steps after).map (written isPattern (control '\\') ++ ·)
      | _, _, 'c', '\\' :: _ => .error .controlOfEscape
      | _, _, 'c', key :: after =>
          (resolvedIn isPattern steps after).map (written isPattern (control key) ++ ·)
      | _, _, _, _ => (resolvedIn isPattern steps rest).map fun others => '\\' :: letter :: others
  | steps + 1, octet :: rest => (resolvedIn isPattern steps rest).map (octet :: ·)

/-- Put octets in the place of what stands for them. -/
def resolved (isPattern : Bool) (text : Octets) : Except ScriptFault Octets :=
  resolvedIn isPattern (text.length + 1) text

/-- A text without the backslashes that guard octets. -/
def unguarded : Octets → Octets
  | [] => []
  | ['\\'] => []
  | '\\' :: octet :: rest => octet :: unguarded rest
  | octet :: rest => octet :: unguarded rest

end Escape

end SceneMarkup.Filters
