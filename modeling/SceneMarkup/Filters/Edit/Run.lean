import SceneMarkup.Filters.Edit.Editor

namespace SceneMarkup.Filters

/-!
# Following a script

An editor follows its script once for every line that it takes.  Where it stands
in the script is told by the instructions that are left.
-/

/-- How an editor goes on after an instruction. -/
inductive Turn
  | goOn (rest : List Instruction)
  /-- Take the next line. -/
  | nextLine
  /-- Follow the script again without another line. -/
  | again
  | stop (exitCode : Nat)
  deriving Repr, DecidableEq

/-- An octet as it shows plainly. -/
def plainOctet (octet : Char) : Octets :=
  let digit (value : Nat) : Char := Char.ofNat ('0'.toNat + value % 8)
  match octet with
  | '\\' => ['\\', '\\']
  | '\x07' => ['\\', 'a']
  | '\x08' => ['\\', 'b']
  | '\x0c' => ['\\', 'f']
  | '\n' => ['\\', 'n']
  | '\r' => ['\\', 'r']
  | '\t' => ['\\', 't']
  | '\x0b' => ['\\', 'v']
  | _ =>
      if Octets.isShown octet then [octet]
      else
        ['\\', digit (octet.toNat / 64), digit (octet.toNat / 8), digit octet.toNat]

/-- Octets as they show plainly, in lines of a length, after so many octets of the first line. -/
def plainLines (mark : Char) (length column : Nat) : Octets → Octets
  | [] => ['$', mark]
  | octet :: rest =>
      let shown := plainOctet octet
      if length ≠ 0 ∧ length - 1 < column + shown.length then
        '\\' :: mark :: shown ++ plainLines mark length shown.length rest
      else shown ++ plainLines mark length (column + shown.length) rest

namespace Edit

/-- Change the octets in the space. -/
def change (step : Octets → Octets) : Edit Unit :=
  modify fun editor =>
    { editor with space := { editor.space with octets := step editor.space.octets } }

/-- The text of an instruction with the end of a line as it is here. -/
def textFor (settings : EditSettings) (text : Octets) : Octets :=
  if text.isEmpty then [] else text.dropLast ++ [settings.mark]

/-- Write a text before the next line is taken. -/
def enqueue (octets : Octets) : Edit Unit :=
  modify fun editor => { editor with queue := octets :: editor.queue }

/-- The text of a file, or the text given, which is read but once. -/
def fileText (settings : EditSettings) (name : String) : Edit Octets := do
  if name = "/dev/stdin" then
    let given := (← get).given
    modify fun editor => { editor with given := [] }
    return given
  return (Source.fileOctets settings.tree name).toOption.getD []

/-- The next line of a file that is read line by line. -/
def fileLine? (settings : EditSettings) (name : String) : Edit (Option Octets) := do
  let lines ←
    match (← get).readers.lookup name with
    | some lines => pure lines
    | none =>
        let text ← fileText settings name
        pure ((InputLine.ofOctets settings.mark name 0 text).map (InputLine.whole settings.mark))
  let others := (← get).readers.filter fun reader => reader.1 != name
  modify fun editor => { editor with readers := (name, lines.drop 1) :: others }
  return lines.head?

/-- Put a replacement in the place of matches in the space. -/
def substitute (settings : EditSettings) (substitution : Substitution) : Edit Unit := do
  let search ← searchFor substitution.search
  let greatest := ReplacementPart.greatestGroup substitution.replacement
  let octets := (← get).space.octets
  let isSeen := search.lineMark.isSome || search.isIn octets
  if search.groups < greatest && isSeen then throw (.missingGroup greatest)
  match substitution.applied? search octets with
  | none => return
  | some octets =>
      change fun _ => octets
      modify fun editor => { editor with hasReplaced := true }
      if substitution.prints then writeLine settings (← get).space
      match substitution.file with
      | some name => writeTo settings name (← get).space
      | none => return

/-- The first line in the space, which ends in any case when another one follows. -/
def firstLine (settings : EditSettings) (space : Space) : Space :=
  if space.octets.contains settings.mark then
    ⟨space.octets.takeWhile (· != settings.mark), true⟩
  else space

/-- Whether a jump is made. -/
def isJump (rule : JumpRule) : Edit Bool := do
  let hasReplaced := (← get).hasReplaced
  match rule with
  | .always => return true
  | .replaced =>
      modify fun editor => { editor with hasReplaced := false }
      return hasReplaced
  | .notReplaced =>
      modify fun editor => { editor with hasReplaced := false }
      return !hasReplaced

/-- What follows a label. -/
def target (settings : EditSettings) (label : Octets) : List Instruction :=
  if label.isEmpty then []
  else (Instruction.afterLabel? label settings.script.instructions).getD []

/-- Follow an instruction that is for the line in the space. -/
def turn (settings : EditSettings) (instruction : Instruction) (rest : List Instruction) :
    Edit Turn := do
  let mark := settings.mark
  match instruction.command with
  | .openBlock => return .goOn rest
  | .closeBlock => return .goOn rest
  | .label _ => return .goOn rest
  | .jump rule label =>
      if ← isJump rule then return .goOn (target settings label)
      return .goOn rest
  | .substitute substitution =>
      substitute settings substitution
      return .goOn rest
  | .exchange pairs =>
      let pairs := pairs.reverse
      change fun octets => octets.map fun octet => (pairs.lookup octet).getD octet
      return .goOn rest
  | .delete => return .nextLine
  | .deleteFirst =>
      if (← get).space.octets.contains mark then
        change fun octets => (octets.dropWhile (· != mark)).drop 1
        return .again
      return .nextLine
  | .empty =>
      change fun _ => []
      return .goOn rest
  | .print =>
      writeLine settings (← get).space
      return .goOn rest
  | .printFirst =>
      writeLine settings (firstLine settings (← get).space)
      return .goOn rest
  | .printNumber =>
      writeRaw settings (Octets.ofNat (← get).number ++ [mark])
      return .goOn rest
  | .printName =>
      writeRaw settings (Octets.ofText (← get).name ++ [mark])
      return .goOn rest
  | .printPlainly length =>
      let length := length.getD settings.lineLength
      writeRaw settings (plainLines mark length 0 (← get).space.octets)
      return .goOn rest
  | .next =>
      writeSpace settings
      if (← get).ahead.isEmpty then return .nextLine
      let _ ← takeLine settings []
      return .goOn rest
  | .appendNext =>
      if (← get).ahead.isEmpty then
        writeSpace settings
        return .nextLine
      let _ ← takeLine settings ((← get).space.octets ++ [mark])
      return .goOn rest
  | .copyToHold =>
      modify fun editor => { editor with aside := editor.space }
      return .goOn rest
  | .appendToHold =>
      modify fun editor =>
        { editor with
          aside := ⟨editor.aside.octets ++ mark :: editor.space.octets, editor.space.isEnded⟩ }
      return .goOn rest
  | .copyFromHold =>
      modify fun editor => { editor with space := editor.aside }
      return .goOn rest
  | .appendFromHold =>
      modify fun editor =>
        { editor with
          space := ⟨editor.space.octets ++ mark :: editor.aside.octets, editor.aside.isEnded⟩ }
      return .goOn rest
  | .swapWithHold =>
      modify fun editor => { editor with space := editor.aside, aside := editor.space }
      return .goOn rest
  | .insert text =>
      writeRaw settings (textFor settings text)
      return .goOn rest
  | .append text =>
      enqueue text
      return .goOn rest
  | .replaceBy text =>
      let state ← rangeOf instruction
      if state = .idle ∨ state = .closed then writeRaw settings (textFor settings text)
      return .nextLine
  | .appendFile name =>
      enqueue (← fileText settings name)
      return .goOn rest
  | .appendLineOf name =>
      match ← fileLine? settings name with
      | some line => enqueue line
      | none => pure ()
      return .goOn rest
  | .writeTo name =>
      writeTo settings name (← get).space
      return .goOn rest
  | .writeFirstTo name =>
      writeTo settings name (firstLine settings (← get).space)
      return .goOn rest
  | .quit exitCode =>
      writeSpace settings
      flush settings
      writeRaw settings []
      return .stop exitCode
  | .quitSilently exitCode => return .stop exitCode

/--
Follow the instructions that are left, and then the script for every line that is ahead, in at most
`steps` steps: the exit code if the script asks to stop.
-/
def follow (settings : EditSettings) : Nat → List Instruction → Edit (Option Nat)
  | 0, _ => return none
  | steps + 1, [] => do
      writeSpace settings
      if ← takeLine settings [] then follow settings steps settings.script.instructions
      else return none
  | steps + 1, instruction :: rest => do
      if ← isFor instruction then
        match ← turn settings instruction rest with
        | .goOn rest => follow settings steps rest
        | .again => follow settings steps settings.script.instructions
        | .stop exitCode => return some exitCode
        | .nextLine =>
            if ← takeLine settings [] then follow settings steps settings.script.instructions
            else return none
      else
        match instruction.command with
        | .openBlock => follow settings steps (Instruction.afterBlock 0 rest)
        | _ => follow settings steps rest

/-- The number of steps after which an editor gives up. -/
def stepLimit : Nat := 100000000

/-- Write the files that come before the first line. -/
def begin (settings : EditSettings) : Edit Unit := do
  if !(← get).ahead.isEmpty then
    settings.script.instructions.forM fun instruction => do
      match instruction.choice, instruction.command with
      | .only (.line 0), .appendFile name => enqueue (← fileText settings name)
      | _, _ => return

/-- Edit all lines that are ahead: the exit code if the script asks to stop. -/
def run (settings : EditSettings) : Edit (Option Nat) := do
  begin settings
  if ← takeLine settings [] then follow settings stepLimit settings.script.instructions
  else return none

end Edit

end SceneMarkup.Filters
