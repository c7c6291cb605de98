import SceneMarkup.Filters.OctetClass

namespace SceneMarkup.Filters

/-!
# Lists of octets that a word writes

A word lists octets one by one, as ranges, as classes, as octets equal to one,
and as octets that are repeated.  A backslash takes the meaning from an octet or
gives it another one.
-/

/-- A part of a list of octets. -/
inductive Part
  | octet (octet : Char)
  | range (first last : Char)
  /-- A class; `cased` for one of the two that translate into each other. -/
  | named (members : List Char) (cased : Bool)
  | equal (octet : Char)
  /-- A repetition; one that counts zero times fills up the list. -/
  | repeated (octet : Char) (times : Nat)
  deriving Repr, DecidableEq

/-- What is wrong with the lists of octets. -/
inductive SetFault
  | fallingRange (first last : Char)
  | unknownClass (name : Octets)
  | namelessClass
  | namelessEquals
  | longEquals (name : Octets)
  | badCount (count : Octets)
  | fillingFirst
  | fillingTwice
  | fillingUnused
  | equalsAsTarget
  | classAsTarget
  | misaligned
  | endsWithClass
  | emptyTarget
  | manyTargets
  deriving Repr, DecidableEq

/-- An octet with the mark whether a backslash stands before it. -/
abbrev MarkedOctet := Char × Bool

/-- Three octal digits of a number, or less. -/
def octalOf (octet : Char) : Octets :=
  let code := octet.toNat
  [code / 64, code / 8 % 8, code % 8].map Nat.digitChar

/-- An octet as a message shows it. -/
def shownOctet (octet : Char) : String :=
  if Octets.isShown octet then octet.toString else String.ofList ('\\' :: octalOf octet)

/-- The text of an octet list in a message. -/
def shownOctets (octets : Octets) : String :=
  String.join (octets.map shownOctet)

namespace SetFault

/-- The wording of a fault. -/
def message : SetFault → String
  | .fallingRange first last =>
      "range-endpoints of '" ++ shownOctet first ++ "-" ++ shownOctet last
        ++ "' are in reverse collating sequence order"
  | .unknownClass name => "invalid character class '" ++ shownOctets name ++ "'"
  | .namelessClass => "missing character class name '[::]'"
  | .namelessEquals => "missing equivalence class character '[==]'"
  | .longEquals name =>
      shownOctets name ++ ": equivalence class operand must be a single character"
  | .badCount count => "invalid repeat count '" ++ shownOctets count ++ "' in [c*n] construct"
  | .fillingFirst => "the [c*] repeat construct may not appear in string1"
  | .fillingTwice => "only one [c*] repeat construct may appear in string2"
  | .fillingUnused => "the [c*] construct may appear in string2 only when translating"
  | .equalsAsTarget => "[=c=] expressions may not appear in string2 when translating"
  | .classAsTarget =>
      "when translating, the only character classes that may appear in\n"
        ++ "string2 are 'upper' and 'lower'"
  | .misaligned => "misaligned [:upper:] and/or [:lower:] construct"
  | .endsWithClass =>
      "when translating with string1 longer than string2,\n"
        ++ "the latter string must not end with a character class"
  | .emptyTarget => "when not truncating set1, string2 must be non-empty"
  | .manyTargets =>
      "when translating with complemented character classes,\n"
        ++ "string2 must map all characters in the domain to one"

end SetFault

/-- The value of an octal digit. -/
def octalValue? (octet : Char) : Option Nat :=
  if '0' ≤ octet ∧ octet ≤ '7' then some (octet.toNat - 48) else none

/-- The octet that a letter after a backslash stands for. -/
def escapedOctet (letter : Char) : Char :=
  match letter with
  | 'a' => '\x07'
  | 'b' => '\x08'
  | 'f' => '\x0c'
  | 'n' => '\n'
  | 'r' => '\r'
  | 't' => '\t'
  | 'v' => '\x0b'
  | other => other

/-- The octet of at most three octal digits that stays below 256, and what follows it. -/
def octalOctet (first : Nat) (rest : Octets) : Char × Octets :=
  match rest with
  | [] => (Char.ofNat first, [])
  | second :: rest' =>
      match octalValue? second with
      | none => (Char.ofNat first, rest)
      | some two =>
          match rest' with
          | [] => (Char.ofNat (8 * first + two), [])
          | third :: rest'' =>
              match octalValue? third with
              | some three =>
                  if 64 * first + 8 * two + three < 256 then
                    (Char.ofNat (64 * first + 8 * two + three), rest'')
                  else (Char.ofNat (8 * first + two), rest')
              | none => (Char.ofNat (8 * first + two), rest')

/-- The octets of a word with at most `steps` of them; a backslash at the end is an octet. -/
def markedOctets : Nat → Octets → List MarkedOctet
  | 0, _ => []
  | _, [] => []
  | _, ['\\'] => [('\\', false)]
  | steps + 1, '\\' :: letter :: rest =>
      match octalValue? letter with
      | some first =>
          let (octet, rest) := octalOctet first rest
          (octet, true) :: markedOctets steps rest
      | none => (escapedOctet letter, true) :: markedOctets steps rest
  | steps + 1, octet :: rest => (octet, false) :: markedOctets steps rest

/-- What stands before the two unmarked octets `mark` and `]`, and what follows them. -/
def upToClosing? (mark : Char) : List MarkedOctet → Option (Octets × List MarkedOctet)
  | first :: second :: rest =>
      if first = (mark, false) ∧ second = (']', false) then some ([], rest)
      else (upToClosing? mark (second :: rest)).map fun found => (first.1 :: found.1, found.2)
  | _ => none

/-- The digits before an unmarked `]`, up to which nothing is marked, and what follows it. -/
def countDigits? : List MarkedOctet → Option (Octets × List MarkedOctet)
  | [] => none
  | (_, true) :: _ => none
  | (octet, false) :: rest =>
      if octet = ']' then some ([], rest)
      else (countDigits? rest).map fun found => (octet :: found.1, found.2)

/-- How often an octet is repeated; digits after a zero are octal. -/
def repeatCount? (digits : Octets) : Option Nat :=
  let base := if digits.head? = some '0' then 8 else 10
  let valid := digits.all fun digit => digit.isDigit && digit.toNat - 48 < base
  if valid then some (digits.foldl (fun value digit => base * value + (digit.toNat - 48)) 0)
  else none

/-- A repetition after its opening bracket, and what follows it. -/
def repeatedPart? : List MarkedOctet → Option (Except SetFault (Part × List MarkedOctet))
  | (octet, _) :: ('*', false) :: rest =>
      (countDigits? rest).map fun found =>
        match repeatCount? found.1 with
        | some times => .ok (.repeated octet times, found.2)
        | none => .error (.badCount found.1)
  | _ => none

/-- Whether a repetition of the octet `:` or `=` stands here, after its opening bracket. -/
def startsRepetition : List MarkedOctet → Bool
  | ('*', false) :: rest =>
      match countDigits? rest with
      | some (digits, _) => digits.all Char.isDigit
      | none => false
  | _ => false

/-- The part of a name between marks, if there is one. -/
def namedPart (mark : Char) (name : Octets) : Except SetFault Part :=
  if mark = ':' then
    if name.isEmpty then .error .namelessClass
    else
      match OctetClass.byName? name with
      | some octetClass =>
          .ok (.named octetClass.members (["lower", "upper"].contains octetClass.name))
      | none => .error (.unknownClass name)
  else
    match name with
    | [] => .error .namelessEquals
    | [octet] => .ok (.equal octet)
    | _ => .error (.longEquals name)

/-- The part after an opening bracket, if it is a class, an equality or a repetition. -/
def bracketPart? (octets : List MarkedOctet) :
    Option (Except SetFault (Part × List MarkedOctet)) :=
  match octets with
  | (mark, false) :: rest =>
      match if mark = ':' ∨ mark = '=' then upToClosing? mark rest else none with
      | some (name, after) =>
          match namedPart mark name with
          | .ok part => some (.ok (part, after))
          | .error fault =>
              if startsRepetition rest && !name.isEmpty then repeatedPart? octets
              else some (.error fault)
      | none => repeatedPart? octets
  | _ => repeatedPart? octets

/-- At most `steps` parts of a list of octets. -/
def parts : Nat → List MarkedOctet → Except SetFault (List Part)
  | 0, _ => .ok []
  | _, [] => .ok []
  | steps + 1, first :: rest =>
      let single : Except SetFault (List Part) :=
        match rest with
        | ('-', false) :: last :: rest =>
            if first.1 ≤ last.1 then
              (parts steps rest).map (Part.range first.1 last.1 :: ·)
            else .error (.fallingRange first.1 last.1)
        | _ => (parts steps rest).map (Part.octet first.1 :: ·)
      if first = ('[', false) ∧ 2 ≤ rest.length then
        match bracketPart? rest with
        | some (.ok (part, rest)) => (parts steps rest).map (part :: ·)
        | some (.error fault) => .error fault
        | none => single
      else single

/-- The parts that a word writes. -/
def partsOf (word : Octets) : Except SetFault (List Part) :=
  parts (word.length + 1) (markedOctets (word.length + 1) word)

namespace Part

/-- The octets of a part. -/
def octets : Part → List Char
  | .octet single => [single]
  | .range first last =>
      (List.range (last.toNat + 1 - first.toNat)).map fun step => Char.ofNat (first.toNat + step)
  | .named members _ => members
  | .equal single => [single]
  | .repeated single times => List.replicate times single

/-- Whether a part fills up its list. -/
def fills : Part → Bool
  | .repeated _ times => times == 0
  | _ => false

/-- Whether a part is a class. -/
def isClass : Part → Bool
  | .named _ _ => true
  | _ => false

/-- Whether a part is one of the two classes that translate into each other. -/
def isCased : Part → Bool
  | .named _ cased => cased
  | _ => false

/-- Whether a part stands for the octets equal to one. -/
def isEqual : Part → Bool
  | .equal _ => true
  | _ => false

/-- The octets of parts in order. -/
def listed (parts : List Part) : List Char :=
  parts.flatMap octets

/-- The places at which classes of one case start. -/
def casedPlaces (place : Nat) : List Part → List Nat
  | [] => []
  | part :: rest =>
      let next := casedPlaces (place + part.octets.length) rest
      if part.isCased then place :: next else next

end Part

end SceneMarkup.Filters
