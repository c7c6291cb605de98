import SceneMarkup.Filters.Edit.Escape
import SceneMarkup.Filters.Edit.Instruction

namespace SceneMarkup.Filters

/-!
# Scanning scripts

What scripts are made of: numbers, labels, names of files, texts, and patterns
between delimiters.  A scan that fails stops at the octet after its fault.
-/

/-- The manner in which a script is read. -/
structure ScriptManner where
  extended : Bool
  /-- Whether files may be neither read nor written by the script. -/
  sandbox : Bool
  /-- The octet that ends lines. -/
  mark : Char
  deriving Repr, DecidableEq

/-- A scan of a script. -/
abbrev Scan := EStateM ScriptFault Octets

/-- Where a delimited pattern is in a bracketed set. -/
inductive BracketState
  | outside
  /-- After an opening bracket; the set may be negated. -/
  | opened
  /-- Before the first member, which may be a closing bracket. -/
  | first
  | members
  /-- After a bracket that is a member or starts the name of one. -/
  | bracket
  | named (mark : Char)
  /-- After a mark that may end a name. -/
  | marked (mark : Char)
  deriving Repr, DecidableEq

namespace BracketState

/-- The state after an octet that means nothing special. -/
def settled : BracketState → BracketState
  | .bracket => .members
  | .marked mark => .named mark
  | state => state

/-- The state after an octet in a set. -/
def afterMember (state : BracketState) (octet : Char) : BracketState :=
  if octet = '.' ∨ octet = ':' ∨ octet = '=' then
    match state with
    | .bracket => .named octet
    | .named mark => if octet = mark then .marked mark else .named mark
    | other => other.settled
  else if octet = '[' then
    match state with
    | .members => .bracket
    | other => other
  else if octet = ']' then
    match state with
    | .members => .outside
    | .bracket => .outside
    | .marked _ => .members
    | other => other
  else state.settled

/-- The state after an octet. -/
def after (state : BracketState) (octet : Char) : BracketState :=
  match state with
  | .outside => if octet = '[' then .opened else .outside
  | .opened =>
      if octet = '^' then .first
      else if octet = ']' then .members
      else afterMember .members octet
  | .first => if octet = ']' then .members else afterMember .members octet
  | other => other.afterMember octet

end BracketState

/-- What a backslash and an octet stand for between delimiters. -/
def escapedBetween (delimiter : Char) (isPattern : Bool) (octet : Char) : Octets :=
  if octet = delimiter ∧ (isPattern ∨ octet ≠ '&') then [octet]
  else if octet = '\n' ∨ (octet = 'n' ∧ isPattern) then ['\n']
  else ['\\', octet]

/--
The text up to a delimiter and what follows the delimiter, or what stands where the search for it
ends.  No delimiter is in a bracketed set of a pattern.
-/
def delimited (delimiter : Char) (isPattern : Bool) :
    BracketState → Octets → Except Octets (Octets × Octets)
  | _, [] => .error []
  | state, first :: rest =>
      if first = '\n' then .error (first :: rest)
      else if state ≠ .outside then
        (delimited delimiter isPattern (state.after first) rest).map fun found =>
          (first :: found.1, found.2)
      else if first = delimiter then .ok ([], rest)
      else if first = '\\' then
        match rest with
        | [] => .error []
        | second :: rest =>
            (delimited delimiter isPattern state rest).map fun found =>
              (escapedBetween delimiter isPattern second ++ found.1, found.2)
      else
        (delimited delimiter isPattern (if isPattern then state.after first else state) rest).map
          fun found => (first :: found.1, found.2)

/--
A text that an instruction writes, as it stands in the script, whether the script ends before the
text does, and what follows.
-/
def rawText : Octets → Octets × Bool × Octets
  | [] => (['\n'], false, [])
  | ['\\'] => (['\n'], true, [])
  | '\\' :: second :: rest =>
      let (text, isOpen, rest) := rawText rest
      ('\\' :: second :: text, isOpen, rest)
  | first :: rest =>
      if first = '\n' then (['\n'], false, rest)
      else
        let (text, isOpen, rest) := rawText rest
        (first :: text, isOpen, rest)

/-- What a raw text says. -/
def textOf (raw : Octets) (isOpen : Bool) : Except ScriptFault Octets :=
  (Escape.resolved false raw).map fun text => if isOpen then text else Escape.unguarded text

namespace Scan

/-- The octet that comes next. -/
def peek : Scan (Option Char) := do
  return (← get).head?

/-- Pass an octet. -/
def pass : Scan Unit :=
  modify (List.drop 1)

/-- Take an octet. -/
def take : Scan (Option Char) := do
  let octet ← peek
  pass
  return octet

/-- Pass blanks. -/
def passBlanks : Scan Unit :=
  modify fun rest => rest.dropWhile fun octet => octet == ' ' || octet == '\t'

/-- Take the octets in front that fit. -/
def takeWhile (fits : Char → Bool) : Scan Octets := do
  let taken := (← get).takeWhile fits
  modify (List.drop taken.length)
  return taken

/-- Take the digits in front; their number is zero if there is none. -/
def number : Scan Nat := do
  let (value, rest) := leadingNumber? (← get)
  set rest
  return value.getD 0

/-- Whether an octet comes next, which is passed then. -/
def passes (octet : Char) : Scan Bool := do
  if (← peek) = some octet then
    pass
    return true
  return false

/-- Take a value or fail. -/
def orFail (value : Except ScriptFault α) : Scan α :=
  match value with
  | .ok value => return value
  | .error fault => throw fault

/-- Take the text up to a delimiter. -/
def upTo (delimiter : Option Char) (isPattern : Bool) (fault : ScriptFault) : Scan Octets := do
  match delimiter with
  | none => throw fault
  | some delimiter =>
      match delimited delimiter isPattern .outside (← get) with
      | .ok (text, rest) =>
          set rest
          return text
      | .error rest =>
          set rest
          throw fault

/-- Pass the end of an instruction. -/
def instructionEnd : Scan Unit := do
  passBlanks
  match ← peek with
  | none => return
  | some octet =>
      if octet = '\x7d' ∨ octet = '#' then return
      pass
      if octet ≠ '\n' ∧ octet ≠ ';' then throw .moreAfterCommand

/-- Take the name of a label. -/
def labelName : Scan Octets := do
  passBlanks
  takeWhile fun octet => !(Octets.isBlankOctet octet || [';', '\x7d', '#'].contains octet)

/-- Take the name of a file, which goes up to the end of the line. -/
def fileName (manner : ScriptManner) : Scan String := do
  if manner.sandbox then throw .forbidden
  passBlanks
  let name ← takeWhile (· != '\n')
  pass
  if name.isEmpty then throw .missingName
  return name.toText

/-- Take a number after blanks, if there is one. -/
def optionalNumber : Scan (Option Nat) := do
  passBlanks
  let (value, rest) := leadingNumber? (← get)
  set rest
  return value

/-- Take a text that an instruction writes: as it stands, and whether it has no end yet. -/
def text : Scan (Octets × Bool) := do
  passBlanks
  match ← get with
  | [] => throw .missingText
  | ['\\'] =>
      pass
      return ([], true)
  | octet :: rest =>
      let start :=
        match octet, rest with
        | '\\', '\n' :: after => after
        | '\\', after => after
        | _, _ => octet :: rest
      let (raw, isOpen, rest) := rawText start
      set rest
      return (raw, isOpen)

/-- Read a pattern, unless it is empty. -/
def pattern (manner : ScriptManner) (text : Octets) (folds byLine : Bool) :
    Scan (Option Search) := do
  if text.isEmpty then
    if folds || byLine then throw .flagsAlone
    return none
  let text ← orFail (Escape.resolved true text)
  let lineMark := if byLine then some manner.mark else none
  match Search.ofOctets ⟨manner.extended, true⟩ folds lineMark text with
  | .ok search => return some search
  | .error fault => throw (.pattern fault)

end Scan

end SceneMarkup.Filters
