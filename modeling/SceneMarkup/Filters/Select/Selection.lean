import SceneMarkup.Filters.Filter
import SceneMarkup.Filters.Pattern.Reader

namespace SceneMarkup.Filters

/-!
# Which lines are selected

Lines that have a match are selected, or those that have none.
-/

/-- Which matches count. -/
inductive Extent
  | anywhere
  /-- Neither end of a match is inside a word. -/
  | words
  /-- A match takes the whole line. -/
  | wholeLine
  deriving Repr, DecidableEq

/-- How a text is treated that has an octet zero. -/
inductive BinaryUse
  /-- It is only said that such a text has a selected line. -/
  | announced
  | asText
  | skipped
  deriving Repr, DecidableEq

/-- What makes a line a selected one. -/
structure Selection where
  searches : List Search
  extent : Extent
  inverts : Bool
  limit : Option Nat
  /-- The octet that ends a line. -/
  lineMark : Char
  binaryUse : BinaryUse

/-- A line of a text: its number, where it starts, and whether it is selected. -/
structure SelectedLine where
  number : Nat
  offset : Nat
  octets : Octets
  isSelected : Bool
  deriving Repr, DecidableEq

namespace Selection

/-- The longest match of a pattern that starts at `start` and whose ends are outside of words. -/
def wordMatch? (search : Search) (line : Array Char) (start : Nat) : Option (Nat × Nat) :=
  let subject := search.subject line
  let stops := (search.waysFrom line start).map (·.position)
  let longest := stops.foldl max start
  let fitting := stops.filter fun stop =>
    (stop == longest || start < stop)
      && !subject.isWordBefore start && !subject.isWordAt stop
  fitting.max?.map (start, ·)

/-- Whether a pattern has a match whose ends are outside of words, however short it is. -/
def hasWordMatch (search : Search) (line : Array Char) : Bool :=
  let subject := search.subject line
  (List.range (line.size + 1)).any fun start =>
    !subject.isWordBefore start
      && (search.waysFrom line start).any fun place => !subject.isWordAt place.position

/-- The match of a pattern from `start` on that takes the whole line. -/
def wholeMatch? (search : Search) (line : Array Char) (start : Nat) : Option (Nat × Nat) :=
  if start = 0 ∧ (search.waysFrom line 0).any fun place => place.position == line.size then
    some (0, line.size)
  else none

/-- Of two matches the one that starts first, or else the longer one. -/
def better (first second : Nat × Nat) : Nat × Nat :=
  if second.1 < first.1 ∨ (second.1 = first.1 ∧ first.2 < second.2) then second else first

/-- The first match of one pattern from `start` on. -/
def matchOf? (task : Selection) (line : Array Char) (start : Nat) (search : Search) :
    Option (Nat × Nat) :=
  match task.extent with
  | .anywhere => (search.first? line start).map fun found => (found.start, found.stop)
  | .wholeLine => wholeMatch? search line start
  | .words =>
      (List.range (line.size + 1 - start)).findSome? fun step =>
        wordMatch? search line (start + step)

/-- The first match of any pattern from `start` on. -/
def match? (task : Selection) (line : Array Char) (start : Nat) : Option (Nat × Nat) :=
  match task.searches.filterMap (task.matchOf? line start) with
  | [] => none
  | first :: rest => some (rest.foldl better first)

/--
Whether a line has a match.  A pattern that does not look back may be cut short
at will to end outside of a word.
-/
def fits (task : Selection) (line : Array Char) : Bool :=
  task.searches.any fun search =>
    if task.extent == .words && !search.looksBack then hasWordMatch search line
    else (task.matchOf? line 0 search).isSome

/-- At most `steps` matches from `start` on that take something. -/
def matchesFrom (task : Selection) (line : Array Char) : Nat → Nat → List (Nat × Nat)
  | 0, _ => []
  | steps + 1, start =>
      match task.match? line start with
      | none => []
      | some (first, stop) =>
          if first = stop then
            if first < line.size then matchesFrom task line steps (first + 1) else []
          else (first, stop) :: matchesFrom task line steps stop

/-- The matches in a line that take something. -/
def matchesIn (task : Selection) (line : Array Char) : List (Nat × Nat) :=
  task.matchesFrom line (line.size + 1) 0

/-- Lines from a number and an offset on, with a limit to selected ones. -/
def judged (task : Selection) (number offset : Nat) (left : Option Nat) :
    List Octets → List SelectedLine
  | [] => []
  | line :: rest =>
      let isSelected := task.fits line.toArray != task.inverts && left != some 0
      ⟨number, offset, line, isSelected⟩
        :: judged task (number + 1) (offset + line.length + 1)
          (if isSelected then left.map (· - 1) else left) rest

/-- Whether a text is none that is meant to be read. -/
def isBinary (task : Selection) (octets : Octets) : Bool :=
  task.binaryUse != .asText && task.lineMark == '\n' && octets.contains '\x00'

/-- The lines of a text; an octet zero ends a line of a text that is not meant to be read. -/
def linesOf (task : Selection) (octets : Octets) : List SelectedLine :=
  if !task.isBinary octets then task.judged 1 0 task.limit (Octets.lines task.lineMark octets)
  else if task.binaryUse == .skipped then []
  else
    let marked := octets.map fun octet => if octet = '\x00' then '\n' else octet
    task.judged 1 0 task.limit (Octets.lines '\n' marked)

end Selection

end SceneMarkup.Filters
