import SceneMarkup.Filters.Edit.Run
import SceneMarkup.Filters.Switches

namespace SceneMarkup.Filters

open Files (FileTree)

/-!
# Editing texts by a script

The lines of all texts are edited as those of one, or text by text; then each may
take the place of the file that it comes from.
-/

/-- The switches of `sed`. -/
def editSwitches : SwitchTable where
  switches := [
    { letter := 'n', names := ["quiet", "silent"] },
    { letter := 'e', arity := .valued, names := ["expression"] },
    { letter := 'f', arity := .valued, names := ["file"] },
    { letter := 'E', names := ["regexp-extended"] },
    { letter := 'r' },
    { letter := 'i', arity := .optional, names := ["in-place"] },
    { letter := 'l', arity := .valued, names := ["line-length"] },
    { letter := 'b', names := ["binary"] },
    { letter := 's', names := ["separate"] },
    { letter := 'u', names := ["unbuffered"] },
    { letter := 'z', names := ["null-data", "zero-terminated"] },
    { letter := '\x01', names := ["posix"], hasLetter := false },
    { letter := '\x02', names := ["sandbox"], hasLetter := false },
    { letter := '\x03', names := ["follow-symlinks"], hasLetter := false }]

/-- The names under which a script may write without a file. -/
def deviceNames : List String :=
  [Edit.outputName, "/dev/stderr", "/dev/null"]

/-- The names under which instructions write. -/
def writtenNames (instructions : List Instruction) : List String :=
  (instructions.filterMap Instruction.writtenFile?).eraseDups

/-- The names of the files that instructions write. -/
def writtenFiles (instructions : List Instruction) : List String :=
  (writtenNames instructions).filter fun name => !deviceNames.contains name

/-- Why an edit is refused before it starts. -/
inductive EditRefusal
  | misuse (fault : Option String)
  | script (failure : ScriptFailure)
  | noTexts
  | closedFile (name wording : String)
  | unreadable (name wording : String)
  deriving Repr, DecidableEq

namespace EditRefusal

/-- The wording of a refusal. -/
def message : EditRefusal → String
  | .misuse fault =>
      (fault.elim "" fun fault => "sed: " ++ fault ++ "\n")
        ++ "Usage: sed [OPTION]... \x7bscript-only-if-no-other-script\x7d [input-file]...\n"
  | .script failure => failure.refusal.message
  | .noTexts => "sed: no input files\n"
  | .closedFile name wording => "sed: couldn't open file " ++ name ++ ": " ++ wording ++ "\n"
  | .unreadable name wording => "sed: read error on " ++ name ++ ": " ++ wording ++ "\n"

/-- The exit code of a refusal. -/
def exitCode : EditRefusal → Nat
  | .misuse _ => 1
  | .script failure => failure.refusal.exitCode
  | .noTexts => 4
  | .closedFile _ _ => 4
  | .unreadable _ _ => 4

/-- The files that are made before a refusal, with nothing in them. -/
def changes : EditRefusal → List (String × Octets)
  | .script failure => (writtenFiles failure.instructions).map (·, [])
  | _ => []

end EditRefusal

/-- What an edit of texts is. -/
structure EditTask where
  settings : EditSettings
  /-- Whether every text is edited on its own. -/
  separate : Bool
  /-- What is added to the names of files that keep the texts as they were. -/
  suffix : String
  sources : List Source
  given : Octets

namespace EditTask

/-- The parts of a script in files and among switches, where `number` of them were among those. -/
def partsOf (tree : FileTree) (number : Nat) : List Given → Except EditRefusal (List ScriptPart)
  | [] => .ok []
  | given :: rest =>
      if given.letter = 'e' then
        (partsOf tree (number + 1) rest).map fun parts =>
          ⟨.word (number + 1), Octets.ofText given.value⟩ :: parts
      else if given.letter = 'f' then
        match Source.fileOctets tree given.value with
        | .error .isDirectory => partsOf tree number rest
        | .error error => .error (.closedFile given.value error.wording)
        | .ok text =>
            (partsOf tree number rest).map fun parts => ⟨.file given.value, text⟩ :: parts
      else partsOf tree number rest

/-- The parts of the script, and the operands that name texts. -/
def scriptOf (tree : FileTree) (reading : Reading) :
    Except EditRefusal (List ScriptPart × List String) :=
  if reading.has 'e' || reading.has 'f' then
    (partsOf tree 0 reading.given).map (·, reading.operands)
  else
    match reading.operands with
    | [] => .error (.misuse none)
    | script :: names => .ok ([⟨.word 1, Octets.ofText script⟩], names)

/-- Refuse a script with a file that cannot be written. -/
def refuseClosed (tree : FileTree) (script : Script) : Except EditRefusal Unit :=
  (writtenFiles script.instructions).forM fun name =>
    match tree.write ⟨name⟩ ByteArray.empty with
    | .ok _ => .ok ()
    | .error error => .error (.closedFile name error.wording)

/-- Refuse texts that are directories. -/
def refuseDirectories (sources : List Source) : Except EditRefusal Unit :=
  sources.forM fun source =>
    match source.content with
    | .error .isDirectory =>
        .error (.unreadable source.name Files.OsError.isDirectory.wording)
    | _ => .ok ()

/-- What the words ask for. -/
def ofReading (tree : FileTree) (text : Octets) (reading : Reading) :
    Except EditRefusal EditTask := do
  let (parts, names) ← scriptOf tree reading
  let mark := if reading.has 'z' then '\x00' else '\n'
  let manner : ScriptManner := ⟨reading.has 'E' || reading.has 'r', reading.has '\x02', mark⟩
  let script ← (Script.ofParts manner parts).mapError .script
  refuseClosed tree script
  let inPlace := reading.has 'i'
  if inPlace && names.isEmpty then throw .noTexts
  let names := if names.isEmpty then ["-"] else names
  let sources := Source.ofNames tree text names
  refuseDirectories sources
  let lengths := (reading.values 'l').map fun value => (leadingNumber? value.toList).1.getD 0
  return {
    settings := {
      quiet := reading.has 'n' || script.isQuiet
      mark := mark
      lineLength := lengths.getLast?.getD 70
      inPlace := inPlace
      tree := tree
      script := script }
    separate := inPlace || reading.has 's'
    suffix := ((reading.values 'i').getLast?).getD ""
    sources := sources
    given := if names.any Source.isGiven then [] else text }

/-- The lines that are edited together, with the name of their text. -/
def groups (task : EditTask) : List (String × List InputLine) :=
  let texts := (task.sources.zipIdx.filter fun entry => entry.1.content.isOk).map fun entry =>
    (entry.1.name,
      InputLine.ofOctets task.settings.mark entry.1.name entry.2 entry.1.octets)
  if task.separate then texts else [("-", texts.flatMap (·.2))]

/-- An editor before its first text. -/
def editor (task : EditTask) : Editor where
  ahead := []
  output := { name := "-" }
  files := (writtenNames task.settings.script.instructions).map fun name => { name := name }
  given := task.given

/-- The changes to files when a text takes the place of the file that it comes from. -/
def placed (task : EditTask) (name : String) (editor : Editor) : List (String × Octets) :=
  if !task.settings.inPlace then []
  else
    let before :=
      (task.sources.filter fun source => source.name == name && task.suffix != "").map
        fun source => (name ++ task.suffix, source.octets)
    before ++ [(name, editor.output.octets)]

/-- An editor after texts, the changes to their files, and how it ended. -/
structure Ending where
  editor : Editor
  changes : List (String × Octets)
  outcome : Except ScriptFault (Option Nat)

/-- Edit texts one after another. -/
def edited (task : EditTask) : List (String × List InputLine) → Editor → Ending
  | [], editor => ⟨editor, [], .ok none⟩
  | (name, lines) :: rest, editor =>
      let before := if task.settings.inPlace then { editor with output := ⟨name, [], false⟩ } else editor
      match EStateM.run (Edit.run task.settings) (before.opened task.settings.script lines) with
      | .ok none after =>
          let ending := task.edited rest after
          { ending with changes := task.placed name after ++ ending.changes }
      | .ok (some exitCode) after => ⟨after, task.placed name after, .ok (some exitCode)⟩
      | .error fault after => ⟨after, task.placed name after, .error fault⟩

/-- What is said about a text that cannot be read. -/
def complaintAbout (source : Source) : String :=
  match source.content with
  | .ok _ => ""
  | .error error => "sed: can't read " ++ source.name ++ ": " ++ error.wording ++ "\n"

/-- The result of an edit of all texts. -/
def result (task : EditTask) : FilterResult :=
  let ending := task.edited task.groups task.editor
  let files := ending.editor.files
  let isConsole (outlet : Outlet) : Bool := outlet.name == Edit.outputName
  let output :=
    if task.settings.inPlace then (files.filter isConsole).flatMap Outlet.octets
    else ending.editor.output.octets
  let changes := ending.changes ++ (files.filterMap fun outlet =>
    if (writtenFiles task.settings.script.instructions).contains outlet.name then
      some (outlet.name, outlet.octets)
    else none)
  match ending.outcome with
  | .error fault =>
      ⟨output, (ScriptRefusal.fault task.settings.script.place fault).message, 1, changes⟩
  | .ok stopped =>
      let seen := if stopped.isSome then task.sources.take ending.editor.source else task.sources
      let complaint := String.join (seen.map complaintAbout)
      ⟨output, complaint, if Source.allReadable seen then stopped.getD 0 else 2, changes⟩

end EditTask

/-- Edit texts by a script, or the text given. -/
def edit : Filter := fun tree words text =>
  let task : Except EditRefusal EditTask := do
    let reading ← (editSwitches.read words).mapError fun fault => .misuse (some fault)
    EditTask.ofReading tree text reading
  match task with
  | .error refusal => ⟨[], refusal.message, refusal.exitCode, refusal.changes⟩
  | .ok task => task.result

end SceneMarkup.Filters
