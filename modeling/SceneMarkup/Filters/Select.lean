import SceneMarkup.Filters.Select.Display
import SceneMarkup.Filters.Switches

namespace SceneMarkup.Filters

open Files (FileTree)

/-!
# Selecting lines

The words of `grep` tell which lines are selected, how they are written, and in
which texts they are looked for.
-/

/-- The switches of `grep`. -/
def selectSwitches : SwitchTable where
  switches :=
    ("0123456789".toList.map fun digit => { letter := digit }) ++ [
    { letter := 'E', names := ["extended-regexp"] },
    { letter := 'F', names := ["fixed-strings"] },
    { letter := 'G', names := ["basic-regexp"] },
    { letter := 'e', arity := .valued, names := ["regexp"] },
    { letter := 'f', arity := .valued, names := ["file"] },
    { letter := 'i', names := ["ignore-case"] },
    { letter := 'y' },
    { letter := '\x01', names := ["no-ignore-case"], hasLetter := false },
    { letter := 'w', names := ["word-regexp"] },
    { letter := 'x', names := ["line-regexp"] },
    { letter := 's', names := ["no-messages"] },
    { letter := 'v', names := ["invert-match"] },
    { letter := 'm', arity := .valued, names := ["max-count"] },
    { letter := 'b', names := ["byte-offset"] },
    { letter := 'n', names := ["line-number"] },
    { letter := '\x02', names := ["line-buffered"], hasLetter := false },
    { letter := 'H', names := ["with-filename"] },
    { letter := 'h', names := ["no-filename"] },
    { letter := '\x03', arity := .valued, names := ["label"], hasLetter := false },
    { letter := 'o', names := ["only-matching"] },
    { letter := 'q', names := ["quiet", "silent"] },
    { letter := 'a', names := ["text"] },
    { letter := 'U', names := ["binary"] },
    { letter := 'I' },
    { letter := '\x04', arity := .valued, names := ["binary-files"], hasLetter := false },
    { letter := 'z', names := ["null-data"] },
    { letter := 'Z', names := ["null"] },
    { letter := 'T', names := ["initial-tab"] },
    { letter := 'u', names := ["unix-byte-offsets"] },
    { letter := 'd', arity := .valued, names := ["directories"] },
    { letter := 'D', arity := .valued, names := ["devices"] },
    { letter := '\x05', arity := .optional, names := ["color", "colour"], hasLetter := false },
    { letter := '\x06', arity := .valued, names := ["group-separator"], hasLetter := false },
    { letter := '\x07', names := ["no-group-separator"], hasLetter := false },
    { letter := 'L', names := ["files-without-match"] },
    { letter := 'l', names := ["files-with-matches"] },
    { letter := 'c', names := ["count"] },
    { letter := 'A', arity := .valued, names := ["after-context"] },
    { letter := 'B', arity := .valued, names := ["before-context"] },
    { letter := 'C', arity := .valued, names := ["context"] }]

/-- Why `grep` refuses its words. -/
inductive SelectFault
  | misuse (fault : Option String)
  /-- A value that is none of those that a switch can have. -/
  | badValue (value switch : String)
  | refused (message : String)
  deriving Repr, DecidableEq

namespace SelectFault

/-- How the words are meant to be. -/
def usage : String :=
  "Usage: grep [OPTION]... PATTERNS [FILE]...\nTry 'grep --help' for more information.\n"

/-- The wording of a refusal. -/
def message : SelectFault → String
  | .misuse fault => (fault.elim "" fun fault => "grep: " ++ fault ++ "\n") ++ usage
  | .badValue value switch =>
      "grep: invalid argument '" ++ value ++ "' for '" ++ switch ++ "'\n" ++ usage
  | .refused message => "grep: " ++ message ++ "\n"

/-- The exit code of a refusal. -/
def exitCode : SelectFault → Nat
  | .badValue _ _ => 1
  | _ => 2

end SelectFault

/-- What `grep` is asked to do. -/
structure SelectTask where
  selection : Selection
  display : Display
  /-- The names of the texts. -/
  names : List String
  silent : Bool
  /-- Directories are passed over. -/
  skipsDirectories : Bool

namespace SelectTask

/-- The last given of some switches. -/
def lastOf? (reading : Reading) (letters : List Char) : Option Given :=
  (reading.given.filter fun given => letters.contains given.letter).getLast?

/-- What is written about texts. -/
def accountFor (reading : Reading) : Account :=
  if reading.has 'q' then .nothing
  else
    match (lastOf? reading ['l', 'L']).map (·.letter) with
    | some 'l' => .names
    | some _ => .otherNames
    | none =>
        if reading.has 'c' then .count else if reading.has 'o' then .matchesOnly else .lines

/-- The number of lines that a value asks for. -/
def contextOf (value : String) : Except SelectFault Nat :=
  match (leadingNumber? value.toList) with
  | (some number, []) => .ok number
  | _ => .error (.refused (value ++ ": invalid context length argument"))

/-- The limit to selected lines that a value asks for; one below zero is none. -/
def limitOf (value : String) : Except SelectFault (Option Nat) :=
  match value.toList with
  | '-' :: digits =>
      match leadingNumber? digits with
      | (some _, []) => .ok none
      | _ => .error (.refused "invalid max count")
  | digits =>
      match leadingNumber? digits with
      | (some number, []) => .ok (some number)
      | _ => .error (.refused "invalid max count")

/-- The lines before and after a selected one that digits among the switches ask for. -/
def digitContext? (reading : Reading) : Option Nat :=
  (leadingNumber? ((reading.given.map (·.letter)).filter Char.isDigit)).1

/-- The value given last to a switch, read. -/
def lastValue (reading : Reading) (letter : Char) (read : String → Except SelectFault α) :
    Except SelectFault (Option α) := do
  let values ← (reading.values letter).mapM read
  return values.getLast?

/-- The dialect that switches ask for; none for patterns that mean themselves. -/
def dialectFor (reading : Reading) : Except SelectFault (Option Dialect) :=
  match ['E', 'F', 'G'].filter reading.has with
  | [] => .ok (some ⟨false, false⟩)
  | ['E'] => .ok (some ⟨true, false⟩)
  | ['F'] => .ok none
  | ['G'] => .ok (some ⟨false, false⟩)
  | _ => .error (.refused "conflicting matchers specified")

/-- The patterns in a file, one on each line. -/
def patternsIn (tree : FileTree) (name : String) : Except SelectFault (List Octets) :=
  match tree.read ⟨name⟩ with
  | .ok bytes => .ok (Octets.lines '\n' (Octets.ofBytes bytes))
  | .error error => .error (.refused (name ++ ": " ++ error.wording))

/-- The patterns that the words give, and the operands that name texts. -/
def patternsFor (tree : FileTree) (reading : Reading) :
    Except SelectFault (List Octets × List String) := do
  if reading.has 'e' || reading.has 'f' then
    let written ← reading.given.mapM fun given =>
      if given.letter = 'e' then .ok [Octets.ofText given.value]
      else if given.letter = 'f' then patternsIn tree given.value
      else .ok []
    return (written.flatten, reading.operands)
  else
    match reading.operands with
    | [] => throw (.misuse none)
    | pattern :: rest => return ([Octets.ofText pattern], rest)

/-- Read a pattern. -/
def searchFor (dialect : Option Dialect) (folds : Bool) (pattern : Octets) :
    Except SelectFault Search :=
  match dialect with
  | none => .ok (Search.literal folds pattern)
  | some dialect =>
      (Search.ofOctets dialect folds none pattern).mapError fun fault => .refused fault.message

/-- The treatment of texts with an octet zero that a switch asks for. -/
def binaryUseOf (given : Given) : Except SelectFault BinaryUse :=
  if given.letter = 'a' then .ok .asText
  else if given.letter = 'I' then .ok .skipped
  else
    match given.value with
    | "binary" => .ok .announced
    | "text" => .ok .asText
    | "without-match" => .ok .skipped
    | _ => .error (.refused "unknown binary-files type")

/-- The treatment of texts with an octet zero that the words ask for. -/
def binaryUseFor (reading : Reading) : Except SelectFault BinaryUse := do
  let given := reading.given.filter fun given => ['a', 'I', '\x04'].contains given.letter
  let uses ← given.mapM binaryUseOf
  return uses.getLast?.getD .announced

/-- Whether a value asks for colours; what is written is never shown at once. -/
def coloursOf (value : String) : Except SelectFault Bool :=
  if ["always", "yes", "force"].contains value then .ok true
  else if ["", "never", "no", "none", "auto", "tty", "if-tty"].contains value then .ok false
  else .error (.misuse none)

/-- Whether a value asks to pass over directories. -/
def skipsDirectoriesOf (value : String) : Except SelectFault Bool :=
  if ["s", "sk", "ski", "skip"].contains value then .ok true
  else if ["rea", "read"].contains value then .ok false
  else .error (.badValue value "--directories")

/-- Read the treatment of devices; there are none. -/
def checkDevices (value : String) : Except SelectFault Unit :=
  if value = "read" ∨ value = "skip" then .ok ()
  else .error (.refused "unknown devices method")

/-- What stands where lines are left out. -/
def separatorFor (reading : Reading) : Option String :=
  match lastOf? reading ['\x06', '\x07'] with
  | some given => if given.letter = '\x06' then some given.value else none
  | none => some "--"

/-- Which lines the words select by some patterns. -/
def selectionFor (reading : Reading) (patterns : List Octets) : Except SelectFault Selection := do
  let dialect ← dialectFor reading
  let limit ← lastValue reading 'm' limitOf
  let binaryUse ← binaryUseFor reading
  let folds := (lastOf? reading ['i', 'y', '\x01']).any fun given => given.letter != '\x01'
  let searches ← patterns.mapM (searchFor dialect folds)
  return {
    searches := searches
    extent :=
      if reading.has 'x' then .wholeLine else if reading.has 'w' then .words else .anywhere
    inverts := reading.has 'v'
    limit := limit.join
    lineMark := if reading.has 'z' then '\x00' else '\n'
    binaryUse := binaryUse }

/-- How the words ask to write lines of some texts. -/
def displayFor (reading : Reading) (names : List String) : Except SelectFault Display := do
  let context ← lastValue reading 'C' contextOf
  let before ← lastValue reading 'B' contextOf
  let after ← lastValue reading 'A' contextOf
  let coloured ← lastValue reading '\x05' coloursOf
  let around := context.orElse fun _ => digitContext? reading
  return {
    account := accountFor reading
    before := before.orElse fun _ => around
    after := after.orElse fun _ => around
    numbers := reading.has 'n'
    offsets := reading.has 'b'
    named :=
      match lastOf? reading ['H', 'h'] with
      | some given => given.letter == 'H'
      | none => 1 < names.length
    label := ((reading.values '\x03').getLast?).getD "(standard input)"
    endsNames := reading.has 'Z'
    aligned := reading.has 'T'
    coloured := coloured.getD false
    separator := separatorFor reading }

/-- What the words ask for. -/
def ofReading (tree : FileTree) (reading : Reading) : Except SelectFault SelectTask := do
  let skipsDirectories ← lastValue reading 'd' skipsDirectoriesOf
  let _ ← lastValue reading 'D' checkDevices
  let (patterns, names) ← patternsFor tree reading
  return {
    display := ← displayFor reading names
    selection := ← selectionFor reading patterns
    names := if names.isEmpty then ["-"] else names
    silent := reading.has 's'
    skipsDirectories := skipsDirectories.getD false }

/-- The texts in which lines are selected. -/
def sources (task : SelectTask) (tree : FileTree) (text : Octets) : List Source :=
  (Source.ofNames tree text task.names).filter fun source =>
    match source.content with
    | .error .isDirectory => !task.skipsDirectories
    | _ => true

/-- What is said about a text: that it cannot be read, or that it has a selected line. -/
def complaintAbout (task : SelectTask) (source : Source) : String :=
  if source.content.isOk then
    let isAnnounced :=
      (task.display.account == .lines || task.display.account == .matchesOnly)
        && task.selection.isBinary source.octets
        && (task.selection.linesOf source.octets).any (·.isSelected)
    if isAnnounced then
      "grep: " ++ (task.display.textOf source).name ++ ": binary file matches\n"
    else ""
  else if task.silent then ""
  else source.complaint "grep"

end SelectTask

/-- Write the selected lines, and fail when there is none. -/
def select : Filter := fun tree words text =>
  let read : Except SelectFault SelectTask := do
    let reading ← (selectSwitches.read words).mapError fun fault => .misuse (some fault)
    SelectTask.ofReading tree reading
  match read with
  | .error fault => .failure fault.exitCode fault.message
  | .ok task =>
      if task.selection.limit = some 0 then .failure 1 ""
      else
        let sources := task.sources tree text
        let (output, count) := task.display.accounts task.selection false sources
        ⟨output,
          String.join (sources.map task.complaintAbout),
          task.display.exitCode count (Source.allReadable sources),
          []⟩

end SceneMarkup.Filters
