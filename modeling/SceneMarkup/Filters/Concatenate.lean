import SceneMarkup.Filters.Filter
import SceneMarkup.Filters.Switches

namespace SceneMarkup.Filters

/-!
# Writing files one after another
-/

/-- How lines are written. -/
structure LineStyle where
  numbersAll : Bool
  numbersFilled : Bool
  marksEnds : Bool
  marksTabs : Bool
  /-- Octets that show nothing are spelled out. -/
  spellsOut : Bool
  /-- Of adjacent empty lines only one is written. -/
  squeezes : Bool

/-- The switches of `cat`. -/
def concatenateSwitches : SwitchTable where
  switches := [
    { letter := 'b', names := ["number-nonblank"] },
    { letter := 'n', names := ["number"] },
    { letter := 's', names := ["squeeze-blank"] },
    { letter := 'v', names := ["show-nonprinting"] },
    { letter := 'E', names := ["show-ends"] },
    { letter := 'T', names := ["show-tabs"] },
    { letter := 'A', names := ["show-all"] },
    { letter := 'e' },
    { letter := 't' },
    { letter := 'u' }]

namespace LineStyle

/-- The style that switches ask for. -/
def ofReading (reading : Reading) : LineStyle where
  numbersAll := reading.has 'n'
  numbersFilled := reading.has 'b'
  marksEnds := ['E', 'e', 'A'].any reading.has
  marksTabs := ['T', 't', 'A'].any reading.has
  spellsOut := ['v', 'e', 't', 'A'].any reading.has
  squeezes := reading.has 's'

/-- How wide the numbers of lines are. -/
def numberWidth : Nat := 6

/-- An octet below 128 spelled out. -/
def spelledBelow (octet : Char) : Octets :=
  if octet.toNat < 32 then ['^', Char.ofNat (octet.toNat + 64)]
  else if octet.toNat = 127 then ['^', '?']
  else [octet]

/-- An octet as it is written. -/
def written (style : LineStyle) (octet : Char) : Octets :=
  if octet = '\t' then (if style.marksTabs then ['^', 'I'] else [octet])
  else if !style.spellsOut then [octet]
  else if octet.toNat < 128 then spelledBelow octet
  else 'M' :: '-' :: spelledBelow (Char.ofNat (octet.toNat - 128))

/-- A carriage return in front of a marked end of a line is spelled out. -/
def writtenEnd (style : LineStyle) (line : Octets) : Octets :=
  if style.marksEnds && line.getLast? == some '\r' then
    line.dropLast.flatMap style.written ++ ['^', 'M']
  else line.flatMap style.written

/-- Lines with the number of the next one and whether the last one was empty. -/
def writeLines (style : LineStyle) (number : Nat) (afterEmpty : Bool) :
    List Octets → List Octets
  | [] => []
  | [line] =>
      if line.isEmpty then []
      else
        let numbered := style.numbersAll || style.numbersFilled
        [(if numbered then Octets.column numberWidth number ++ ['\t'] else [])
          ++ line.flatMap style.written]
  | line :: rest =>
      if style.squeezes && afterEmpty && line.isEmpty then writeLines style number true rest
      else
        let numbered := style.numbersFilled && !line.isEmpty || style.numbersAll && !style.numbersFilled
        ((if numbered then Octets.column numberWidth number ++ ['\t'] else [])
          ++ style.writtenEnd line ++ (if style.marksEnds then ['$'] else []) ++ ['\n'])
          :: writeLines style (if numbered then number + 1 else number) line.isEmpty rest

end LineStyle

/-- Write the texts that the words name, or the text given; fail when one cannot be read. -/
def concatenate : Filter := fun tree words text =>
  match concatenateSwitches.read words with
  | .error fault => .failure 1 (misuse "cat" fault)
  | .ok reading =>
      let names := if reading.operands.isEmpty then ["-"] else reading.operands
      let sources := Source.ofNames tree text names
      let joined := sources.flatMap Source.octets
      ⟨((LineStyle.ofReading reading).writeLines 1 false (Octets.cut '\n' joined)).flatten,
        String.join (sources.map (Source.complaint "cat")),
        if Source.allReadable sources then 0 else 1,
        []⟩

end SceneMarkup.Filters
