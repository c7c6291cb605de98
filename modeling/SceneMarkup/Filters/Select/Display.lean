import SceneMarkup.Filters.Select.Selection

namespace SceneMarkup.Filters

/-!
# How selected lines are written

Lines near a selected line may be written with it; a separator then stands where
lines are left out.  The name of the text, the number of a line and the place
where it starts may stand before it.
-/

/-- What is written about a text. -/
inductive Account
  | lines
  | matchesOnly
  | count
  /-- The name of a text with a selected line. -/
  | names
  /-- The name of a text without a selected line. -/
  | otherNames
  | nothing
  deriving Repr, DecidableEq

/-- How selected lines are written. -/
structure Display where
  account : Account
  /-- Lines that are written before and after a selected line, if that is asked for. -/
  before : Option Nat
  after : Option Nat
  numbers : Bool
  offsets : Bool
  named : Bool
  /-- The name of the text given. -/
  label : String
  /-- An octet zero ends the name of a text. -/
  endsNames : Bool
  /-- Numbers are as wide as the size of the text, and lines start behind a tab. -/
  aligned : Bool
  coloured : Bool
  /-- What stands where lines are left out. -/
  separator : Option String

/-- A part of what is written that has a colour of its own. -/
inductive Highlight
  | name
  | number
  | mark
  | found
  deriving Repr, DecidableEq

/-- The number by which a console knows the colour of a part. -/
def Highlight.colour : Highlight → String
  | .name => "35"
  | .number => "32"
  | .mark => "36"
  | .found => "01;31"

/-- A text under its written name, where numbers have a width. -/
structure NamedText where
  name : String
  width : Nat
  deriving Repr, DecidableEq

namespace Display

/-- A part as it is written. -/
def highlighted (display : Display) (part : Highlight) (octets : Octets) : Octets :=
  if display.coloured then
    Octets.ofText ("\x1b[" ++ part.colour ++ "m\x1b[K") ++ octets ++ Octets.ofText "\x1b[m\x1b[K"
  else octets

/-- The name of a text, and what separates it from what follows. -/
def nameBefore (display : Display) (name : String) (mark : Char) : Octets :=
  display.highlighted .name (Octets.ofText name)
    ++ if display.endsNames then ['\x00'] else display.highlighted .mark [mark]

/-- A number, and what separates it from what follows. -/
def numberBefore (display : Display) (width number : Nat) (mark : Char) : Octets :=
  display.highlighted .number (Octets.column width number) ++ display.highlighted .mark [mark]

/-- What stands before a line or a match, with `mark` after each part. -/
def heading (display : Display) (text : NamedText) (mark : Char) (number offset : Nat)
    (octets : Octets) : Octets :=
  let parts :=
    (if display.named then display.nameBefore text.name mark else [])
      ++ (if display.numbers then display.numberBefore text.width number mark else [])
      ++ (if display.offsets then display.numberBefore text.width offset mark else [])
  if display.aligned && !parts.isEmpty && !octets.isEmpty then parts ++ ['\t'] else parts

/-- A line from `start` on in which matches are coloured. -/
def withMatches (display : Display) (line : Array Char) (start : Nat) :
    List (Nat × Nat) → Octets
  | [] => (line.extract start line.size).toList
  | (first, stop) :: rest =>
      (line.extract start first).toList
        ++ display.highlighted .found (line.extract first stop).toList
        ++ withMatches display line stop rest

/-- What is written for a line: the line, or the matches in it. -/
def written (display : Display) (task : Selection) (text : NamedText) (line : SelectedLine) :
    Octets :=
  let mark := if line.isSelected then ':' else '-'
  let octets := line.octets.toArray
  let found :=
    if line.isSelected != task.inverts && (display.coloured || display.account == .matchesOnly) then
      task.matchesIn octets
    else []
  if display.account == .matchesOnly then
    found.flatMap fun piece =>
      let taken := (octets.extract piece.1 piece.2).toList
      display.heading text mark line.number (line.offset + piece.1) taken
        ++ display.highlighted .found taken ++ [task.lineMark]
  else
    display.heading text mark line.number line.offset line.octets
      ++ display.withMatches octets 0 found ++ [task.lineMark]

/-- Whether a line is written: it is selected, or near enough to a selected one. -/
def isWritten (display : Display) (selected : List Nat) (number : Nat) : Bool :=
  selected.any fun other =>
    if number ≤ other then other - number ≤ display.before.getD 0
    else number - other ≤ display.after.getD 0

/-- The separator, if lines are left out between what is written before and after it. -/
def gap (display : Display) (isGap : Bool) : Octets :=
  if isGap && (display.before.isSome || display.after.isSome) then
    display.separator.elim [] fun separator =>
      display.highlighted .mark (Octets.ofText separator) ++ ['\n']
  else []

/-- Lines one after another; `isGap` when others are written before that do not touch them. -/
def writtenLines (display : Display) (task : Selection) (text : NamedText) (isGap : Bool) :
    List SelectedLine → Octets
  | [] => []
  | [line] => display.gap isGap ++ display.written task text line
  | line :: next :: rest =>
      display.gap isGap ++ display.written task text line
        ++ writtenLines display task text (line.number + 1 != next.number) (next :: rest)

/-- How wide numbers are when the size of a text is not known beforehand. -/
def unknownWidth : Nat := 19

/-- A text under the name that is written for it, and how wide numbers are that count in it. -/
def textOf (display : Display) (source : Source) : NamedText where
  name := if source.name = "-" then display.label else source.name
  width :=
    if !display.aligned then 0
    else if Source.isGiven source.name then unknownWidth
    else
      let greatest := source.octets.length + if display.numbers then 1 else 0
      (Octets.ofNat greatest).length

/-- The name of a text on a line of its own. -/
def nameLine (display : Display) (name : String) : Octets :=
  display.highlighted .name (Octets.ofText name) ++ [if display.endsNames then '\x00' else '\n']

/-- What is written about a text after others, where its lines are known. -/
def accountOf (display : Display) (task : Selection) (follows : Bool) (source : Source)
    (lines : List SelectedLine) : Octets :=
  let text := display.textOf source
  let selected := (lines.filter (·.isSelected)).map (·.number)
  match display.account with
  | .nothing => []
  | .names => if selected.isEmpty then [] else display.nameLine text.name
  | .otherNames => if selected.isEmpty then display.nameLine text.name else []
  | .count =>
      (if display.named then display.nameBefore text.name ':' else [])
        ++ Octets.ofNat selected.length ++ ['\n']
  | _ =>
      if task.isBinary source.octets then []
      else
        let shown := lines.filter fun line => display.isWritten selected line.number
        display.writtenLines task text follows shown

/-- What is written about texts, and how many lines are selected. -/
def accounts (display : Display) (task : Selection) (follows : Bool) :
    List Source → Octets × Nat
  | [] => ([], 0)
  | source :: rest =>
      if source.content.isOk then
        let lines := task.linesOf source.octets
        let output := display.accountOf task follows source lines
        let count := lines.countP (·.isSelected)
        let (others, further) := accounts display task (follows || count != 0) rest
        (output ++ others, count + further)
      else accounts display task follows rest

/-- The exit code of a run that selected `count` lines. -/
def exitCode (display : Display) (count : Nat) (allReadable : Bool) : Nat :=
  if !allReadable && !(display.account == .nothing && count != 0) then 2
  else if count = 0 then 1
  else 0

end Display

end SceneMarkup.Filters
