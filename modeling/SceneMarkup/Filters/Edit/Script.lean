import SceneMarkup.Filters.Edit.Reader

namespace SceneMarkup.Filters

/-!
# Scripts

A script is put together from parts, which stand among the words of a call or in
files.  Blocks, and the text of an instruction, may go on from part to part.
-/

/-- Where a part of a script stands. -/
inductive ScriptOrigin
  | word (number : Nat)
  | file (name : String)
  deriving Repr, DecidableEq

/-- A part of a script. -/
structure ScriptPart where
  origin : ScriptOrigin
  text : Octets
  deriving Repr, DecidableEq

/-- A script, and where it is said to be at fault when that shows only as it is followed. -/
structure Script where
  instructions : List Instruction
  place : String
  /-- Whether only what instructions write is written. -/
  isQuiet : Bool
  deriving Repr, DecidableEq

/-- Why a script is refused. -/
inductive ScriptRefusal
  | fault (place : String) (fault : ScriptFault)
  | unknownLabel (name : Octets)
  deriving Repr, DecidableEq

/-- A refusal, and the instructions that were read before it. -/
structure ScriptFailure where
  refusal : ScriptRefusal
  instructions : List Instruction
  deriving Repr, DecidableEq

namespace ScriptRefusal

/-- The wording of a refusal. -/
def message : ScriptRefusal → String
  | .fault place cause =>
      if cause = .pattern .bareClass then "sed: " ++ cause.message ++ "\n"
      else "sed: " ++ place ++ ": " ++ cause.message ++ "\n"
  | .unknownLabel name => "sed: can't find label for jump to `" ++ name.toText ++ "'\n"

/-- The exit code of a refusal. -/
def exitCode : ScriptRefusal → Nat
  | .fault _ cause => if cause = .pattern .bareClass then 4 else 1
  | .unknownLabel _ => 4

end ScriptRefusal

namespace ScriptOrigin

/-- A place in a script, after what was read of the part. -/
def place (origin : ScriptOrigin) (read : Octets) : String :=
  match origin with
  | .word number =>
      "-e expression #" ++ toString number ++ ", char " ++ toString read.length
  | .file name => "file " ++ name ++ " line " ++ toString (1 + read.count '\n')

/-- The place of something that is missed only after the whole part was read. -/
def laterPlace (origin : ScriptOrigin) (read : Octets) : String :=
  match origin with
  | .word _ => origin.place []
  | .file _ => origin.place read

end ScriptOrigin

/-- What is read of a script, the latest instruction first. -/
structure ScriptReading where
  instructions : List Instruction := []
  /-- The places of the blocks that are open, the innermost first. -/
  blocks : List String := []
  /-- The text of the latest instruction if it has no end yet. -/
  openText : Option Octets := none
  place : String := ""
  deriving Repr, DecidableEq

namespace ScriptReading

/-- The blocks that are open after an instruction. -/
def blocksAfter (reading : ScriptReading) (place : String) (instruction : Instruction) :
    List String :=
  match instruction.command with
  | .openBlock => place :: reading.blocks
  | .closeBlock => reading.blocks.drop 1
  | _ => reading.blocks

/-- Add what was scanned. -/
def withScanned (reading : ScriptReading) (place : String)
    (scanned : Option Instruction × Option Octets) : ScriptReading :=
  match scanned.1 with
  | none => reading
  | some instruction =>
      { reading with
        instructions := instruction :: reading.instructions
        blocks := reading.blocksAfter place instruction
        openText := scanned.2 }

/-- Read at most `steps` instructions in what is left of a part. -/
def withRest (manner : ScriptManner) (part : ScriptPart) :
    Nat → ScriptReading → Octets → Except ScriptFailure ScriptReading
  | 0, reading, _ => .ok reading
  | steps + 1, reading, rest =>
      let rest := rest.dropWhile fun octet => octet == ';' || Octets.isBlankOctet octet
      let read (rest : Octets) := part.text.take (part.text.length - rest.length)
      if rest.isEmpty then .ok reading
      else
        match Scan.instruction manner reading.blocks.length reading.instructions.length rest with
        | .ok scanned after =>
            let place := part.origin.laterPlace (read rest)
            withRest manner part steps (reading.withScanned place scanned) after
        | .error fault after =>
            .error ⟨.fault (part.origin.place (read after)) fault, reading.instructions⟩

/-- The command of an instruction with another text. -/
def withText (text : Octets) : Command → Command
  | .append _ => .append text
  | .insert _ => .insert text
  | .replaceBy _ => .replaceBy text
  | other => other

/-- Go on with a text that has no end yet: what is read, and what is left of the part. -/
def continued (reading : ScriptReading) (start : Octets) (part : ScriptPart) :
    Except ScriptFailure (ScriptReading × Octets) :=
  let (raw, isOpen, rest) := rawText part.text
  match textOf (start ++ raw) isOpen, reading.instructions with
  | .error fault, _ =>
      .error ⟨.fault (part.origin.place part.text) fault, reading.instructions⟩
  | .ok text, latest :: others =>
      let latest := { latest with command := withText text latest.command }
      .ok ({ reading with
        instructions := latest :: others
        openText := if isOpen then some (start ++ raw) else none }, rest)
  | .ok _, [] => .ok (reading, rest)

/-- Read a part after others. -/
def withPart (manner : ScriptManner) (reading : ScriptReading) (part : ScriptPart) :
    Except ScriptFailure ScriptReading := do
  let reading := { reading with place := part.origin.laterPlace part.text }
  match reading.openText with
  | none => withRest manner part (part.text.length + 1) reading part.text
  | some start =>
      let (reading, rest) ← reading.continued start part
      withRest manner part (part.text.length + 1) reading rest

end ScriptReading

namespace Script

/-- Whether the first part of a script asks for quiet in its first two octets. -/
def asksQuiet (parts : List ScriptPart) : Bool :=
  parts.head?.any fun part => part.text.take 2 == ['#', 'n']

/-- Read a script. -/
def ofParts (manner : ScriptManner) (parts : List ScriptPart) : Except ScriptFailure Script := do
  let reading ← parts.foldlM (ScriptReading.withPart manner) {}
  match reading.blocks with
  | place :: _ => throw ⟨.fault place .openBlock, reading.instructions⟩
  | [] =>
      let instructions := reading.instructions.reverse
      let isUnknown (name : Octets) : Bool := (Instruction.afterLabel? name instructions).isNone
      match (instructions.filterMap Instruction.neededLabel?).find? isUnknown with
      | some name => throw ⟨.unknownLabel name, instructions⟩
      | none => return ⟨instructions, reading.place, asksQuiet parts⟩

end Script

end SceneMarkup.Filters
