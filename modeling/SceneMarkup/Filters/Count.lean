import SceneMarkup.Filters.Filter
import SceneMarkup.Filters.Switches

namespace SceneMarkup.Filters

/-!
# Counting lines, words and bytes
-/

/-- What can be counted, in the order in which counts are written. -/
inductive Measure
  | lines
  | words
  | characters
  | bytes
  /-- The length of the longest line. -/
  | longest
  deriving Repr, DecidableEq

/-- A walk over a text that counts words and measures lines. -/
structure Walk where
  words : Nat := 0
  inWord : Bool := false
  place : Nat := 0
  longest : Nat := 0
  deriving Repr, DecidableEq

/-- Take an octet; what shows nothing neither makes a word nor takes room. -/
def Walk.step (walk : Walk) (octet : Char) : Walk :=
  if octet = '\n' ∨ octet = '\r' ∨ octet = '\x0c' then
    { walk with inWord := false, place := 0, longest := max walk.longest walk.place }
  else if octet = '\t' then
    { walk with inWord := false, place := walk.place + 8 - walk.place % 8 }
  else if octet = ' ' then { walk with inWord := false, place := walk.place + 1 }
  else if octet = '\x0b' then { walk with inWord := false }
  else if Octets.isShown octet then
    { walk with
      words := if walk.inWord then walk.words else walk.words + 1
      inWord := true
      place := walk.place + 1 }
  else walk

/-- The walk over a whole text. -/
def Walk.over (octets : Octets) : Walk :=
  octets.foldl Walk.step {}

namespace Measure

/-- The count of a measure in a text; a line counts when it ends, a byte is a character. -/
def count (octets : Octets) : Measure → Nat
  | .lines => octets.count '\n'
  | .words => (Walk.over octets).words
  | .characters => octets.length
  | .bytes => octets.length
  | .longest => max (Walk.over octets).longest (Walk.over octets).place

/-- The count of a measure in several texts. -/
def total (measure : Measure) (counts : List Nat) : Nat :=
  match measure with
  | .longest => counts.foldl max 0
  | _ => counts.foldl (· + ·) 0

/-- The letters of the measures, in the order in which counts are written. -/
def letters : List (Char × Measure) :=
  [('l', .lines), ('w', .words), ('m', .characters), ('c', .bytes), ('L', .longest)]

/-- The measures that are counted when none is asked for. -/
def usual : List Measure :=
  [.lines, .words, .bytes]

end Measure

/-- The switches of `wc`. -/
def countSwitches : SwitchTable where
  switches := [
    { letter := 'c', names := ["bytes"] },
    { letter := 'm', names := ["chars"] },
    { letter := 'l', names := ["lines"] },
    { letter := 'w', names := ["words"] },
    { letter := 'L', names := ["max-line-length"] }]

/-- The width of a column when a text is given whose size is not known beforehand. -/
def columnWidth : Nat := 7

/-- The width of the columns for the texts that words name. -/
def widthFor (measures : List Measure) (sources : List Source) : Nat :=
  if measures.length ≤ 1 ∧ sources.length ≤ 1 then 1
  else
    let readable := sources.filter fun source => source.content.isOk
    let files := readable.filter fun source => source.name != "-"
    let size := (files.map fun source => source.octets.length).foldl (· + ·) 0
    let least := if files.length = readable.length then 1 else columnWidth
    max least (Octets.ofNat size).length

/-- One line of counts, with the name that words give to the text. -/
def countLine (width : Nat) (counts : List Nat) (name : Option String) : Octets :=
  [' '].intercalate (counts.map (Octets.column width))
    ++ (name.elim [] fun name => ' ' :: Octets.ofText name) ++ ['\n']

/-- Write the counts of the measures that the words ask for, and their sums for several texts. -/
def count : Filter := fun tree words text =>
  match countSwitches.read words with
  | .error fault => .failure 1 (misuse "wc" fault)
  | .ok reading =>
      let asked := (Measure.letters.filter fun entry => reading.has entry.1).map (·.2)
      let measures := if asked.isEmpty then Measure.usual else asked
      let named := !reading.operands.isEmpty
      let sources := Source.ofNames tree text (if named then reading.operands else ["-"])
      let width := widthFor measures sources
      let countsOf (source : Source) : List Nat := measures.map (Measure.count source.octets)
      let line (source : Source) : Octets :=
        countLine width (countsOf source) (if named then some source.name else none)
      let totals := measures.map fun measure =>
        measure.total (sources.map fun source => measure.count source.octets)
      ⟨(sources.filter fun source => source.content.isOk).flatMap line
          ++ (if sources.length ≤ 1 then [] else countLine width totals (some "total")),
        String.join (sources.map (Source.complaint "wc")),
        if Source.allReadable sources then 0 else 1,
        []⟩

end SceneMarkup.Filters
