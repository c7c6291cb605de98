import SceneMarkup.Filters.OctetClass
import SceneMarkup.Filters.Pattern.Basic

namespace SceneMarkup.Filters

/-!
# Tokens of written patterns

There are two ways of writing: the basic one marks most operators with a
backslash, the extended one marks the octets that are no operators.  What an
octet means depends on what stands before it: a repetition that has nothing to
repeat is an octet like any other, is left out, or is refused.
-/

/-- A way of writing patterns. -/
structure Dialect where
  extended : Bool
  /-- A repetition without anything to repeat is refused. -/
  strict : Bool
  deriving Repr, DecidableEq

/-- What is wrong with a written pattern. -/
inductive PatternFault
  | openBracket
  | openGroup
  | strayClose
  | badCount
  | openCount
  | tooBig
  | badReference
  | fallingRange
  | unknownClass
  | unknownSymbol
  | nothingToRepeat
  | trailingBackslash
  /-- A class stands without a second pair of brackets. -/
  | bareClass
  deriving Repr, DecidableEq

/-- The wording of a fault. -/
def PatternFault.message : PatternFault → String
  | .openBracket => "Unmatched [, [^, [:, [., or [="
  | .openGroup => "Unmatched ( or \\("
  | .strayClose => "Unmatched ) or \\)"
  | .badCount => "Invalid content of \\\x7b\\\x7d"
  | .openCount => "Unmatched \\\x7b"
  | .tooBig => "Regular expression too big"
  | .badReference => "Invalid back reference"
  | .fallingRange => "Invalid range end"
  | .unknownClass => "Invalid character class name"
  | .unknownSymbol => "Invalid collation character"
  | .nothingToRepeat => "Invalid preceding regular expression"
  | .trailingBackslash => "Trailing backslash"
  | .bareClass => "character class syntax is [[:space:]], not [:space:]"

/-- A token of a pattern. -/
inductive PatternToken
  | octets (set : OctetSet)
  | border (border : Border)
  | again (number : Nat)
  | openGroup
  | closeGroup
  | alternate
  /-- Repeat what stands before, so many times at least and at most. -/
  | times (least : Nat) (most : Option Nat)
  deriving Repr, DecidableEq

/-- What stands before a token. -/
inductive Preceding
  | nothing
  /-- A repetition of nothing that is left out. -/
  | leftOut
  /-- Borders only. -/
  | firstBorder
  /-- A border after something else. -/
  | border
  | unit
  | times
  /-- A repetition of a border. -/
  | borderTimes
  deriving Repr, DecidableEq

/-- The closed ranges of a list of octets in rising order. -/
def rangesOf : List Char → List (Char × Char)
  | [] => []
  | octet :: rest =>
      match rangesOf rest with
      | [] => [(octet, octet)]
      | (first, last) :: others =>
          if octet.toNat + 1 = first.toNat then (octet, last) :: others
          else (octet, octet) :: (first, last) :: others

/-- What stands before `mark` and a closing bracket, and what follows them. -/
def upToMark? (mark : Char) : Octets → Option (Octets × Octets)
  | first :: second :: rest =>
      if first = mark ∧ second = ']' then some ([], rest)
      else (upToMark? mark (second :: rest)).map fun found => (first :: found.1, found.2)
  | _ => none

/-- A member of a bracketed set: an octet that may start a range, or ranges. -/
inductive SetMember
  | single (octet : Char)
  | ranges (ranges : List (Char × Char))
  deriving Repr, DecidableEq

/-- The member of a bracketed set that stands first, and what follows it. -/
def setMember (text : Octets) : Except PatternFault (SetMember × Octets) :=
  match text with
  | [] => .error .openBracket
  | '[' :: mark :: rest =>
      if mark = ':' ∨ mark = '=' ∨ mark = '.' then
        match upToMark? mark rest with
        | none => .error .openBracket
        | some (name, rest) =>
            if mark = ':' then
              match OctetClass.byName? name with
              | some octetClass => .ok (.ranges (rangesOf octetClass.members), rest)
              | none => .error .unknownClass
            else
              match name with
              | [octet] =>
                  .ok (if mark = '=' then .ranges [(octet, octet)] else .single octet, rest)
              | _ => .error .unknownSymbol
      else .ok (.single '[', mark :: rest)
  | octet :: rest => .ok (.single octet, rest)

/-- The ranges of at most `steps` members of a bracketed set, and what follows its end. -/
def setRanges (isFirst : Bool) : Nat → Octets → Except PatternFault (List (Char × Char) × Octets)
  | 0, _ => .error .openBracket
  | steps + 1, text => do
      if text.isEmpty then throw .openBracket
      if !isFirst && text.head? == some ']' then return ([], text.drop 1)
      if !isFirst && text.head? == some '-' && text[1]? != some ']' then throw .fallingRange
      let (member, rest) ← setMember text
      match member with
      | .ranges ranges =>
          let (others, rest) ← setRanges false steps rest
          return (ranges ++ others, rest)
      | .single first =>
          if rest.head? == some '-' && rest[1]? != some ']' then
            let (last, rest) ← setMember (rest.drop 1)
            match last with
            | .single last =>
                if last < first then throw .fallingRange
                let (others, rest) ← setRanges false steps rest
                return ((first, last) :: others, rest)
            | .ranges _ => throw .fallingRange
          else
            let (others, rest) ← setRanges false steps rest
            return ((first, first) :: others, rest)

/-- Whether a class name stands in one pair of brackets only. -/
def isBareClass (text : Octets) : Bool :=
  let inner := text.takeWhile (· != ']')
  inner.head? == some ':' && inner.getLast? == some ':' && inner.any (· != ':')
    && !inner.contains '['

/-- The set after an opening bracket, and what follows it. -/
def bracketSet (text : Octets) : Except PatternFault (OctetSet × Octets) := do
  let negated := text.head? == some '^'
  let body := if negated then text.drop 1 else text
  let (ranges, rest) ← setRanges true (body.length + 1) body
  if isBareClass body then throw .bareClass
  return (⟨ranges, negated⟩, rest)

/-- The largest number of repetitions. -/
def greatestCount : Nat := 32767

/-- The number that leads a text, and what follows it. -/
def leadingNumber? (text : Octets) : Option Nat × Octets :=
  let digits := text.takeWhile Char.isDigit
  if digits.isEmpty then (none, text)
  else
    (some (digits.foldl (fun value digit => 10 * value + (digit.toNat - 48)) 0),
      text.drop digits.length)

/-- What follows the end of a count, if it ends here. -/
def afterCount? (dialect : Dialect) : Octets → Option Octets
  | '\x7d' :: rest => if dialect.extended then some rest else none
  | '\\' :: '\x7d' :: rest => if dialect.extended then none else some rest
  | _ => none

/-- The two counts after an opening brace as they are written, and what follows them. -/
def writtenCounts (dialect : Dialect) (text : Octets) :
    Except PatternFault (Nat × Option Nat × Octets) := do
  let (first, afterFirst) := leadingNumber? text
  let (least, most, rest) ←
    match afterFirst, first with
    | ',' :: afterComma, _ =>
        let (last, rest) := leadingNumber? afterComma
        .ok (first.getD 0, last, rest)
    | _, some count => .ok (count, some count, afterFirst)
    | [], none => .error .openCount
    | _, none => .error .badCount
  match afterCount? dialect rest with
  | some rest => return (least, most, rest)
  | none => throw (if rest.isEmpty || rest == ['\\'] then .openCount else .badCount)

/-- The repetition with two counts. -/
def countToken (least : Nat) (most : Option Nat) : Except PatternFault PatternToken :=
  if most.any fun most => most < least then .error .badCount
  else if greatestCount < max least (most.getD 0) then .error .tooBig
  else .ok (.times least most)

/-- The token of a letter after a backslash that means the same everywhere, if it is one. -/
def escapeToken? (letter : Char) : Option PatternToken :=
  match letter with
  | 'w' => some (.octets ⟨rangesOf (OctetClass.everyOctet.filter Octets.isWordOctet), false⟩)
  | 'W' => some (.octets ⟨rangesOf (OctetClass.everyOctet.filter Octets.isWordOctet), true⟩)
  | 's' => some (.octets ⟨rangesOf (OctetClass.everyOctet.filter Octets.isBlankOctet), false⟩)
  | 'S' => some (.octets ⟨rangesOf (OctetClass.everyOctet.filter Octets.isBlankOctet), true⟩)
  | 'b' => some (.border .wordBorder)
  | 'B' => some (.border .noWordBorder)
  | '<' => some (.border .wordStart)
  | '>' => some (.border .wordEnd)
  | '`' => some (.border .textStart)
  | '\'' => some (.border .textEnd)
  | _ =>
      if letter.isDigit && letter != '0' then some (.again (letter.toNat - 48)) else none

/-- Whether a basic pattern, or a side of a choice or a group in it, ends here. -/
def isBasicEnd : Octets → Bool
  | [] => true
  | '\\' :: ')' :: _ => true
  | '\\' :: '|' :: _ => true
  | _ => false

/-- What an octet or a pair of a backslash and an octet is. -/
inductive Operator
  | token (token : PatternToken)
  /-- An octet that means itself. -/
  | plain (octet : Char)
  | bracket
  | brace
  /-- A repetition; `marked` when it has a backslash. -/
  | repetition (octet : Char) (marked : Bool) (least : Nat) (most : Option Nat)
  deriving Repr, DecidableEq

namespace Dialect

/-- What stands first in a pattern, and what follows it. -/
def operator? (dialect : Dialect) (preceding : Preceding) (depth : Nat) :
    Octets → Option (Operator × Octets)
  | [] => none
  | ['\\'] => none
  | '\\' :: letter :: rest =>
      match escapeToken? letter with
      | some token => some (.token token, rest)
      | none =>
          let found : Operator :=
            if dialect.extended then .plain letter
            else
              match letter with
              | '(' => .token .openGroup
              | ')' => .token .closeGroup
              | '|' => .token .alternate
              | '\x7b' => .brace
              | '+' => .repetition '+' true 1 none
              | '?' => .repetition '?' true 0 (some 1)
              | other => .plain other
          some (found, rest)
  | octet :: rest =>
      let found : Operator :=
        match octet with
        | '.' => .token (.octets .any)
        | '[' => .bracket
        | '*' => .repetition '*' false 0 none
        | '^' =>
            if dialect.extended || preceding == .nothing then .token (.border .lineStart)
            else .plain octet
        | '$' =>
            if dialect.extended || isBasicEnd rest then .token (.border .lineEnd)
            else .plain octet
        | _ =>
            if !dialect.extended then .plain octet
            else
              match octet with
              | '(' => .token .openGroup
              | ')' =>
                  if dialect.strict || depth != 0 then .token .closeGroup else .plain octet
              | '|' => .token .alternate
              | '\x7b' => .brace
              | '+' => .repetition '+' false 1 none
              | '?' => .repetition '?' false 0 (some 1)
              | other => .plain other
      some (found, rest)

/-- Whether a repetition has something to repeat. -/
def canRepeat (dialect : Dialect) (preceding : Preceding) : Bool :=
  match preceding with
  | .nothing => false
  | .leftOut => false
  | .firstBorder => dialect.extended && !dialect.strict
  | .border => !dialect.strict
  | .unit => true
  | .times => true
  | .borderTimes => true

/-- What a repetition without anything to repeat is; `none` when it is left out. -/
def loneRepetition (dialect : Dialect) (octet : Char) : Except PatternFault (Option PatternToken) :=
  if dialect.extended then
    if dialect.strict then .error .nothingToRepeat else .ok none
  else .ok (some (.octets (.one octet)))

/-- Read what an opening brace starts; without counts after it, it may be an octet. -/
def braceToken (dialect : Dialect) (preceding : Preceding) (rest : Octets) :
    Except PatternFault (Option PatternToken × Octets) :=
  let brace : Option PatternToken × Octets := (some (.octets (.one '\x7b')), rest)
  let lenient := dialect.extended && !dialect.strict
  if !dialect.canRepeat preceding && dialect.strict then .error .nothingToRepeat
  else if !dialect.canRepeat preceding && !dialect.extended then .ok brace
  else if dialect.strict && !dialect.extended && preceding == .times then .error .nothingToRepeat
  else
    match writtenCounts dialect rest with
    | .error fault => if lenient then .ok brace else .error fault
    | .ok (least, most, rest) =>
        if dialect.canRepeat preceding then
          (countToken least most).map fun token => (some token, rest)
        else .ok (none, rest)

/-- Read the token that an operator starts, unless it is left out, and what follows. -/
def tokenOf (dialect : Dialect) (preceding : Preceding) (operator : Operator) (rest : Octets) :
    Except PatternFault (Option PatternToken × Octets) :=
  match operator with
  | .token token => .ok (some token, rest)
  | .plain octet => .ok (some (.octets (.one octet)), rest)
  | .bracket => (bracketSet rest).map fun found => (some (.octets found.1), found.2)
  | .repetition octet marked least most =>
      if dialect.canRepeat preceding then
        if dialect.strict && !dialect.extended && !marked && preceding == .times then
          .error .nothingToRepeat
        else .ok (some (.times least most), rest)
      else (dialect.loneRepetition octet).map (·, rest)
  | .brace => dialect.braceToken preceding rest

/-- What a token is for the one after it; `isBrace` tells counts from other repetitions. -/
def precedingOf (before : Preceding) (isBrace : Bool) : Option PatternToken → Preceding
  | none => if isBrace then .nothing else .leftOut
  | some (.octets _) => .unit
  | some (.again _) => .unit
  | some .closeGroup => .unit
  | some (.border _) =>
      match before with
      | .unit => .border
      | .times => .border
      | .border => .border
      | .borderTimes => .border
      | _ => .firstBorder
  | some (.times _ _) =>
      match before, isBrace with
      | .border, false => .borderTimes
      | .firstBorder, false => .borderTimes
      | .borderTimes, false => .borderTimes
      | _, _ => .times
  | some .openGroup => .nothing
  | some .alternate => .nothing

/-- Whether a group cannot be closed after a repetition that is none. -/
def keepsOpen (preceding : Preceding) (token : Option PatternToken) : Bool :=
  token == some .closeGroup && (preceding == .leftOut || preceding == .borderTimes)

/-- How many groups are open after a token. -/
def depthAfter (depth : Nat) : Option PatternToken → Nat
  | some .openGroup => depth + 1
  | some .closeGroup => depth - 1
  | _ => depth

/-- At most `steps` tokens of a pattern. -/
def tokens (dialect : Dialect) :
    Nat → Preceding → Nat → Octets → Except PatternFault (List PatternToken)
  | 0, _, _, _ => .ok []
  | _, _, _, [] => .ok []
  | steps + 1, preceding, depth, text =>
      match dialect.operator? preceding depth text with
      | none => .error .trailingBackslash
      | some (operator, rest) => do
          let (token, rest) ← dialect.tokenOf preceding operator rest
          if dialect.extended && keepsOpen preceding token then throw .openGroup
          let next := precedingOf preceding (operator == .brace) token
          let others ← dialect.tokens steps next (depthAfter depth token) rest
          return token.toList ++ others

end Dialect

end SceneMarkup.Filters
