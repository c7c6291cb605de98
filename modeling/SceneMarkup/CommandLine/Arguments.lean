import SceneMarkup.Files.Path
import SceneMarkup.Options.Basic
import SceneMarkup.Text.Capital

namespace SceneMarkup.CommandLine

open Files (Path)

/-!
# Arguments

What a command line may say: switches, settings that carry a value, and two
operands.  Each may be said once.
-/

/-- Arguments that carry no value. -/
inductive Switch
  | types
  | keepNames
  | keepGroups
  | includeData
  | shadows
  | instanceShared
  | instanceAll
  | deduplicate
  | aggressive
  | debug
  | help
  | version
  deriving Repr, DecidableEq

namespace Switch

/-- The switch with the given long name. -/
def ofName? (name : String) : Option Switch :=
  match name with
  | "types" => some .types
  | "keepnames" => some .keepNames
  | "keepgroups" => some .keepGroups
  | "meta" => some .includeData
  | "shadows" => some .shadows
  | "instance" => some .instanceShared
  | "instanceall" => some .instanceAll
  | "transform" => some .deduplicate
  | "aggressive" => some .aggressive
  | "debug" => some .debug
  | "help" => some .help
  | "version" => some .version
  | _ => none

/-- The switch with the given letter. -/
def ofLetter? (letter : Char) : Option Switch :=
  match letter with
  | 't' => some .types
  | 'k' => some .keepNames
  | 'K' => some .keepGroups
  | 'm' => some .includeData
  | 's' => some .shadows
  | 'i' => some .instanceShared
  | 'I' => some .instanceAll
  | 'T' => some .deduplicate
  | 'a' => some .aggressive
  | 'D' => some .debug
  | 'h' => some .help
  | 'V' => some .version
  | _ => none

end Switch

/-- Arguments that carry a value after their name. -/
inductive Setting
  | precision
  | draco
  | root
  | header
  | formatter
  | batch
  deriving Repr, DecidableEq

namespace Setting

/-- The setting with the given long name. -/
def ofName? (name : String) : Option Setting :=
  match name with
  | "precision" => some .precision
  | "draco" => some .draco
  | "root" => some .root
  | "header" => some .header
  | "formatter" => some .formatter
  | "batch" => some .batch
  | _ => none

/-- The setting with the given letter; not every setting has one. -/
def ofLetter? (letter : Char) : Option Setting :=
  match letter with
  | 'p' => some .precision
  | 'd' => some .draco
  | 'r' => some .root
  | _ => none

end Setting

/-- Arguments told apart by their place. -/
inductive Operand
  | model
  | output
  deriving Repr, DecidableEq

/-- What an argument is about. -/
inductive Subject
  | switch (switch : Switch)
  | setting (setting : Setting)
  | operand (operand : Operand)
  deriving Repr, DecidableEq

/-- Everything but a switch needs a value. -/
def Subject.needsValue : Subject → Bool
  | .switch _ => false
  | _ => true

/-- Why a command line is not followed. -/
inductive Refusal
  /-- The user asked for a description of the arguments. -/
  | help
  /-- The user asked for the version. -/
  | version
  /-- Nothing is called `argument`, or there is no place for it. -/
  | unknownArgument (argument : String)
  /-- A switch was given a value. -/
  | unexpectedValue (switch : Switch)
  /-- A value is absent, or is empty where a path is needed. -/
  | missingValue (subject : Subject)
  /-- The value is no whole number of at most 32 bits. -/
  | malformedNumber (value : String)
  /-- An argument was given twice. -/
  | repeated (subject : Subject)
  /-- A batch names its own models. -/
  | batchWithModel
  /-- There is neither a model nor a batch. -/
  | nothingToConvert
  deriving Repr, DecidableEq

namespace Refusal

/-- Asking for information is no mistake. -/
def isRequest : Refusal → Bool
  | .help => true
  | .version => true
  | _ => false

/-- The exit code of a run that ends with a refusal. -/
def exitCode (refusal : Refusal) : Nat :=
  if refusal.isRequest then 0 else 2

end Refusal

/-- What the command line asks for. -/
structure Arguments where
  model : Option Path := none
  output : Option Path := none
  batch : Option Path := none
  options : Options := {}
  deriving Repr, Inhabited

namespace Arguments

/-- Turn a switch on. -/
def withSwitch (arguments : Arguments) (switch : Switch) : Except Refusal Arguments :=
  let options := arguments.options
  match switch with
  | .types => .ok { arguments with options := { options with types := true } }
  | .keepNames => .ok { arguments with options := { options with keepNames := true } }
  | .keepGroups => .ok { arguments with options := { options with keepGroups := true } }
  | .includeData => .ok { arguments with options := { options with includeData := true } }
  | .shadows => .ok { arguments with options := { options with shadows := true } }
  | .instanceShared => .ok { arguments with options := { options with instanceShared := true } }
  | .instanceAll => .ok { arguments with options := { options with instanceAll := true } }
  | .deduplicate => .ok { arguments with options := { options with deduplicate := true } }
  | .aggressive => .ok { arguments with options := { options with aggressive := true } }
  | .debug => .ok { arguments with options := { options with debug := true } }
  | .help => .error .help
  | .version => .error .version

/-- A run of decimal digits as a number; the run is not empty. -/
def digitRun? (digits : List Char) : Option Nat :=
  if digits.isEmpty || !digits.all Char.isDigit then none
  else some (digits.foldl (fun value digit => 10 * value + (digit.toNat - 48)) 0)

/-- A whole number of at most 32 bits: digits after an optional sign. -/
def word? (text : String) : Option UInt32 :=
  match text.toList with
  | '-' :: digits => (digitRun? digits).bind fun value => if value = 0 then some 0 else none
  | '+' :: digits => (digitRun? digits).bind bounded?
  | digits => (digitRun? digits).bind bounded?
where
  bounded? (value : Nat) : Option UInt32 :=
    if value < UInt32.size then some (UInt32.ofNat value) else none

/-- A path that says something. -/
def path? (subject : Subject) (value : String) : Except Refusal Path :=
  if value.isEmpty then .error (.missingValue subject) else .ok ⟨value⟩

/-- Give a setting its value. -/
def withSetting (arguments : Arguments) (setting : Setting) (value : String) :
    Except Refusal Arguments :=
  let options := arguments.options
  match setting with
  | .precision =>
      match word? value with
      | some word => .ok { arguments with options := { options with precision := word } }
      | none => .error (.malformedNumber value)
  | .draco => .ok { arguments with options := { options with draco := some (.text value) } }
  | .root =>
      (path? (.setting .root) value).map fun path =>
        { arguments with options := { options with root := some path.text } }
  | .header => .ok { arguments with options := { options with header := some value } }
  | .formatter => .ok { arguments with options := { options with formatter := some value } }
  | .batch =>
      (path? (.setting .batch) value).map fun path => { arguments with batch := some path }

/-- Put an operand in its place. -/
def withOperand (arguments : Arguments) (operand : Operand) (value : String) :
    Except Refusal Arguments :=
  (path? (.operand operand) value).map fun path =>
    match operand with
    | .model => { arguments with model := some path }
    | .output => { arguments with output := some path }

/-- Settle what a subject says; `value` is not looked at for a switch. -/
def saying (arguments : Arguments) (subject : Subject) (value : String) :
    Except Refusal Arguments :=
  match subject with
  | .switch switch => arguments.withSwitch switch
  | .setting setting => arguments.withSetting setting value
  | .operand operand => arguments.withOperand operand value

/-- The file that a model is written to when the command line names none. -/
def defaultOutput? (model : Path) (types : Bool) : Option Path :=
  model.stem?.map fun stem => ⟨Text.capitalized stem ++ "." ++ Options.extension types⟩

/-- Why a model gives no name for a component. -/
def unnamedMessage (model : Path) : String :=
  "Cannot derive a component name from " ++ model.text

/-- A command line names a model or a batch, and not both. -/
def checked (arguments : Arguments) : Except Refusal Arguments :=
  if arguments.batch.isSome ∧ arguments.model.isSome then .error .batchWithModel
  else if arguments.batch.isNone ∧ arguments.model.isNone then .error .nothingToConvert
  else .ok arguments

end Arguments

end SceneMarkup.CommandLine
