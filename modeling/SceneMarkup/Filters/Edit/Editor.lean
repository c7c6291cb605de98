import SceneMarkup.Filters.Edit.Script
import SceneMarkup.Filters.Filter

namespace SceneMarkup.Filters

open Files (FileTree)

/-!
# Editors

An editor holds one text in its space and another one aside.  What it writes goes
to its output or to files; a line that has no end in its text gets one only when
more is written after it.
-/

/-- A text that an editor holds. -/
structure Space where
  octets : Octets := []
  /-- Whether the end of a line follows. -/
  isEnded : Bool := true
  deriving Repr, DecidableEq

/-- A line of a text that is edited. -/
structure InputLine where
  octets : Octets
  isEnded : Bool
  /-- The name of its text. -/
  name : String
  /-- The number of texts before its own. -/
  source : Nat
  deriving Repr, DecidableEq

/-- Where an editor writes; what is written is held backwards. -/
structure Outlet where
  name : String
  written : List Octets := []
  lacksEnd : Bool := false
  deriving Repr, DecidableEq

/-- What is known of a range of lines. -/
inductive RangeState
  | idle
  /-- The range ends at a line that is known. -/
  | upTo (number : Nat)
  | started
  /-- The range started at a line that does not come again. -/
  | closed
  deriving Repr, DecidableEq

/-- What an editor is told beside its script. -/
structure EditSettings where
  quiet : Bool
  /-- The octet that ends lines. -/
  mark : Char
  /-- The length of lines in which every octet shows. -/
  lineLength : Nat
  /-- Whether texts take the place of the files that they come from. -/
  inPlace : Bool
  tree : FileTree
  script : Script

/-- An editor at work. -/
structure Editor where
  space : Space := {}
  aside : Space := {}
  ahead : List InputLine
  /-- The number of the line taken last, and where it comes from. -/
  number : Nat := 0
  name : String := "-"
  source : Nat := 0
  /-- What is written before the next line is taken, the latest first. -/
  queue : List Octets := []
  output : Outlet
  files : List Outlet := []
  hasReplaced : Bool := false
  /-- The pattern that was looked for last. -/
  latest : Option Search := none
  ranges : Array RangeState := #[]
  /-- The lines that are left of files that are read line by line. -/
  readers : List (String × List Octets) := []
  /-- The text given, unless its lines are edited. -/
  given : Octets := []
  deriving Repr, DecidableEq

namespace InputLine

/-- The lines of a text. -/
def ofOctets (mark : Char) (name : String) (source : Nat) (octets : Octets) : List InputLine :=
  let pieces := Octets.cut mark octets
  let ended := pieces.dropLast.map fun piece => ⟨piece, true, name, source⟩
  match pieces.getLast? with
  | none => ended
  | some [] => ended
  | some piece => ended ++ [⟨piece, false, name, source⟩]

/-- The octets of a line with its end. -/
def whole (mark : Char) (line : InputLine) : Octets :=
  line.octets ++ if line.isEnded then [mark] else []

end InputLine

namespace Outlet

/-- Write octets as they are. -/
def withRaw (mark : Char) (octets : Octets) (outlet : Outlet) : Outlet where
  name := outlet.name
  written := octets :: if outlet.lacksEnd then [mark] :: outlet.written else outlet.written

/-- Write a line. -/
def withSpace (mark : Char) (space : Space) (outlet : Outlet) : Outlet :=
  let octets := space.octets ++ if space.isEnded then [mark] else []
  { outlet.withRaw mark octets with lacksEnd := !space.isEnded }

/-- All that is written. -/
def octets (outlet : Outlet) : Octets :=
  outlet.written.reverse.flatten

end Outlet

/-- What is known of the range of an instruction before any line. -/
def Instruction.firstRange (instruction : Instruction) : RangeState :=
  match instruction.choice with
  | .range first _ => if first = .line 0 then .started else .idle
  | _ => .idle

/-- An editor before the lines of a text; what it wrote before stays. -/
def Editor.opened (editor : Editor) (script : Script) (lines : List InputLine) : Editor where
  ahead := lines
  output := editor.output
  files := editor.files
  latest := editor.latest
  ranges := (script.instructions.map Instruction.firstRange).toArray
  given := editor.given

/-- Work of an editor. -/
abbrev Edit := EStateM ScriptFault Editor

namespace Edit

/-- Write octets to the output as they are. -/
def writeRaw (settings : EditSettings) (octets : Octets) : Edit Unit :=
  modify fun editor => { editor with output := editor.output.withRaw settings.mark octets }

/-- Write a line to the output. -/
def writeLine (settings : EditSettings) (space : Space) : Edit Unit :=
  modify fun editor => { editor with output := editor.output.withSpace settings.mark space }

/-- Write the space unless only instructions write. -/
def writeSpace (settings : EditSettings) : Edit Unit := do
  if !settings.quiet then writeLine settings (← get).space

/-- The name under which a file is the output. -/
def outputName : String :=
  "/dev/stdout"

/-- Write a line to a file; the output under its name does not know what else is written to it. -/
def writeTo (settings : EditSettings) (name : String) (space : Space) : Edit Unit := do
  let isOutput := name = outputName && !settings.inPlace
  let written (outlet : Outlet) : Outlet :=
    let outlet := outlet.withSpace settings.mark space
    if isOutput then { outlet with written := [] } else outlet
  let fresh := ((← get).files.filter fun outlet => outlet.name == name).flatMap fun outlet =>
    ({ outlet with written := [] }.withSpace settings.mark space).octets
  modify fun editor =>
    { editor with
      files := editor.files.map fun outlet =>
        if outlet.name = name then written outlet else outlet
      output :=
        if isOutput then { editor.output with written := fresh :: editor.output.written }
        else editor.output }

/-- Write what waits for the next line. -/
def flush (settings : EditSettings) : Edit Unit := do
  let queue := (← get).queue
  queue.reverse.forM (writeRaw settings)
  modify fun editor => { editor with queue := [] }

/-- Take the next line, if there is one, after a text that stays in the space. -/
def takeLine (settings : EditSettings) (kept : Octets) : Edit Bool := do
  flush settings
  match (← get).ahead with
  | [] => return false
  | line :: rest =>
      modify fun editor =>
        { editor with
          space := ⟨kept ++ line.octets, line.isEnded⟩
          ahead := rest
          number := editor.number + 1
          name := line.name
          source := line.source
          hasReplaced := false }
      return true

/-- The pattern to look for: the one given, or the one that was looked for last. -/
def searchFor (given : Option Search) : Edit Search := do
  match given, (← get).latest with
  | some search, _ =>
      modify fun editor => { editor with latest := some search }
      return search
  | none, some search => return search
  | none, none => throw .noEarlierPattern

/-- Whether the line in the space fits an address. -/
def fits (address : Address) : Edit Bool := do
  match address with
  | .line number => return (← get).number == number
  | .every first step =>
      let number := (← get).number
      return first ≤ number && (number - first) % step == 0
  | .last => return (← get).ahead.isEmpty
  | .matching given => return (← searchFor given).isIn (← get).space.octets

/-- The first number from `number` on that is a number of steps after `first`. -/
def nextStep (number first step : Nat) : Nat :=
  if number ≤ first then first else first + (number - first + step - 1) / step * step

/-- The line where a range ends that starts at a line, if its number is known. -/
def knownEnd? (number : Nat) (final : RangeEnd) : Option Nat :=
  match final with
  | .further count => some (number + count)
  | .multiple factor => some (if factor = 0 then number else (number / factor + 1) * factor)
  | .address (.line final) => some final
  | .address (.every first step) => some (nextStep number first step)
  | .address _ => none

/-- Keep the state of the range of an instruction. -/
def setRange (instruction : Instruction) (state : RangeState) : Edit Unit :=
  modify fun editor =>
    { editor with ranges := editor.ranges.setIfInBounds instruction.number state }

/-- The state of the range of an instruction. -/
def rangeOf (instruction : Instruction) : Edit RangeState := do
  return ((← get).ranges[instruction.number]?).getD .idle

/-- The state of a range after its end. -/
def endedRange (first : Address) : RangeState :=
  match first with
  | .line _ => .closed
  | _ => .idle

/-- Whether a range starts at the line in the space; a line that was passed over counts. -/
def startsRange (first : Address) : Edit Bool := do
  match first with
  | .line number => return number ≤ (← get).number
  | _ => fits first

/-- Start a range at the line in the space, and tell whether that line is in it. -/
def startRange (instruction : Instruction) (first : Address) (final : RangeEnd) : Edit Bool := do
  let number := (← get).number
  match knownEnd? number final with
  | none =>
      let isWhole := final == .address .last && (← fits .last)
      setRange instruction (if isWhole then endedRange first else .started)
      return true
  | some last =>
      setRange instruction (if last ≤ number then endedRange first else .upTo last)
      match first, final with
      | .line start, .address (.line _) => return number ≤ last || number == start
      | _, _ => return true

/-- Whether the line in the space is in a range. -/
def isInRange (instruction : Instruction) (first : Address) (final : RangeEnd) : Edit Bool := do
  let number := (← get).number
  match ← rangeOf instruction with
  | .closed => return false
  | .idle => if ← startsRange first then startRange instruction first final else return false
  | .upTo last =>
      if last ≤ number then setRange instruction (endedRange first)
      match final with
      | .address (.line _) => return number ≤ last
      | _ => return true
  | .started =>
      match final with
      | .address address =>
          if ← fits address then setRange instruction (endedRange first)
          return true
      | _ => return true

/-- Whether an instruction is for the line in the space. -/
def isFor (instruction : Instruction) : Edit Bool := do
  let isChosen ←
    match instruction.choice with
    | .all => pure true
    | .only address => fits address
    | .range first final => isInRange instruction first final
  return isChosen != instruction.negated

end Edit

end SceneMarkup.Filters
