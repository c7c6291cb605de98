import SceneMarkup.CommandLine.Arguments

namespace SceneMarkup.CommandLine

/-!
# Reading a command line

Words are read one by one.  A setting may stand apart from its value, and an
operand counts only once the next argument begins, so a subject with what is
known of its value is kept until then.
-/

/-- What has been read so far. -/
structure Reading where
  arguments : Arguments := {}
  /-- The subjects that have been settled. -/
  settled : List Subject := []
  /-- A subject that is still open, and its value once there is one. -/
  pending : Option (Subject × Option String) := none
  /-- The places that are left for operands. -/
  places : List Operand := [.model, .output]
  /-- Whether a word of two dashes was read: all words after it are operands. -/
  closed : Bool := false
  deriving Repr

namespace Reading

/-- Settle a subject: it comes with a value if it needs one, and it comes once. -/
def settle (reading : Reading) (subject : Subject) (value : Option String) :
    Except Refusal Reading :=
  if subject.needsValue && value.isNone then .error (.missingValue subject)
  else if reading.settled.contains subject then .error (.repeated subject)
  else
    (reading.arguments.saying subject (value.getD "")).map fun arguments =>
      { reading with arguments := arguments, settled := subject :: reading.settled }

/-- Settle the open subject. -/
def resolve (reading : Reading) : Except Refusal Reading :=
  match reading.pending with
  | some (subject, value) => { reading with pending := none }.settle subject value
  | none => .ok reading

/-- Read a setting with the value attached to its name, if there is one. -/
def setting (reading : Reading) (name : Setting) (attached : Option String) :
    Except Refusal Reading := do
  let resolved ← reading.resolve
  match attached with
  | some value => resolved.settle (.setting name) (some value)
  | none => return { resolved with pending := some (.setting name, none) }

/-- Read a switch. -/
def switch (reading : Reading) (name : Switch) : Except Refusal Reading := do
  (← reading.resolve).settle (.switch name) none

/-- Read a long name with the value after its equals sign, if there is one. -/
def longName (reading : Reading) (name : String) (attached : Option String) :
    Except Refusal Reading :=
  match Setting.ofName? name, Switch.ofName? name, attached with
  | some found, _, _ => reading.setting found attached
  | none, some found, none => reading.switch found
  | none, some found, some _ => .error (.unexpectedValue found)
  | none, none, _ => .error (.unknownArgument ("--" ++ name))

/-- The value that follows a letter in one word: an equals sign in front is left out. -/
def attachedValue? : List Char → Option String
  | [] => none
  | '=' :: rest => some (String.ofList rest)
  | rest => some (String.ofList rest)

/-- Read letters: switches up to a setting, whose value is the rest of the word. -/
def letters (reading : Reading) : List Char → Except Refusal Reading
  | [] => .ok reading
  | letter :: rest =>
      match Setting.ofLetter? letter, Switch.ofLetter? letter with
      | some found, _ => reading.setting found (attachedValue? rest)
      | none, some found => do letters (← reading.switch found) rest
      | none, none => .error (.unknownArgument ("-" ++ letter.toString))

/-- Read a value or an operand. -/
def plain (reading : Reading) (word : String) : Except Refusal Reading :=
  match reading.pending, reading.closed with
  | some (.setting name, none), false =>
      .ok { reading with pending := some (.setting name, some word) }
  | _, _ =>
      match reading.places with
      | [] => .error (.unknownArgument word)
      | place :: places => do
          let resolved ← reading.resolve
          return { resolved with pending := some (.operand place, some word), places := places }

/-- Read one word. -/
def word (reading : Reading) (word : String) : Except Refusal Reading :=
  if reading.closed then reading.plain word
  else
    match word.toList with
    | ['-', '-'] => .ok { reading with closed := true }
    | '-' :: '-' :: name =>
        let bare := name.takeWhile (· != '=')
        let attached := (name.dropWhile (· != '=')).tail?.map String.ofList
        reading.longName (String.ofList bare) attached
    | '-' :: first :: rest => reading.letters (first :: rest)
    | _ => reading.plain word

end Reading

/-- Read all words of a command line after the program's name. -/
def Arguments.ofWords (words : List String) : Except Refusal Arguments := do
  let reading ← words.foldlM Reading.word {}
  (← reading.resolve).arguments.checked

end SceneMarkup.CommandLine
