namespace SceneMarkup.Filters

/-!
# Switches

The words of a filter are switches, their values, and operands.  A switch is a
letter after one dash, which may be followed by more letters, or a name after
two dashes, which may be cut short as long as it stays the only one.
-/

/-- Whether a switch has a value. -/
inductive Arity
  | alone
  | valued
  /-- A value follows at once or not at all. -/
  | optional
  deriving Repr, DecidableEq

/-- A switch of a filter. -/
structure Switch where
  /-- The letter by which the switch is known. -/
  letter : Char
  arity : Arity := .alone
  names : List String := []
  /-- Whether the letter may be written. -/
  hasLetter : Bool := true
  deriving Repr, DecidableEq

/-- The switches of a filter. -/
structure SwitchTable where
  switches : List Switch
  /-- Whether nothing after the first operand is a switch. -/
  operandsLast : Bool := false
  deriving Repr, DecidableEq

/-- A switch as it is given, with its value. -/
structure Given where
  letter : Char
  value : String := ""
  deriving Repr, DecidableEq

/-- Words told apart. -/
structure Reading where
  given : List Given
  operands : List String
  deriving Repr, DecidableEq

namespace Reading

/-- Whether a switch is given. -/
def has (reading : Reading) (letter : Char) : Bool :=
  reading.given.any fun given => given.letter == letter

/-- The values given to a switch, in order. -/
def values (reading : Reading) (letter : Char) : List String :=
  (reading.given.filter fun given => given.letter == letter).map (·.value)

/-- Put a switch in front. -/
def withGiven (given : List Given) (reading : Reading) : Reading :=
  { reading with given := given ++ reading.given }

/-- Put an operand in front. -/
def withOperand (operand : String) (reading : Reading) : Reading :=
  { reading with operands := operand :: reading.operands }

end Reading

namespace SwitchTable

/-- The switch with a letter. -/
def byLetter? (table : SwitchTable) (letter : Char) : Option Switch :=
  table.switches.find? fun switch => switch.hasLetter && switch.letter == letter

/-- The names of all switches that start with `start`, each with its switch. -/
def named (table : SwitchTable) (start : String) : List (String × Switch) :=
  (table.switches.flatMap fun switch => switch.names.map (·, switch)).filter fun entry =>
    start.toList.isPrefixOf entry.1.toList

/-- The switch with a name, which may be cut short, or what is wrong with the name. -/
def byName (table : SwitchTable) (name written : String) : Except String (String × Switch) :=
  let candidates := table.named name
  match candidates.find? fun entry => entry.1 == name, candidates with
  | some entry, _ => .ok entry
  | none, [] => .error ("unrecognized option '--" ++ written ++ "'")
  | none, first :: others =>
      if others.all fun entry => entry.2 == first.2 then .ok first
      else
        .error ("option '--" ++ written ++ "' is ambiguous; possibilities:"
          ++ String.join (candidates.map fun entry => " '--" ++ entry.1 ++ "'"))

/-- Split a long switch at its first equals sign. -/
def splitValue (written : String) : String × Option String :=
  match written.splitOn "=" with
  | name :: value :: rest => (name, some ("=".intercalate (value :: rest)))
  | _ => (written, none)

/-- What a group of letters after a dash gives, and the letter that waits for the next word. -/
def letters (table : SwitchTable) : List Char → Except String (List Given × Option Char)
  | [] => .ok ([], none)
  | letter :: rest =>
      match table.byLetter? letter with
      | none => .error ("invalid option -- '" ++ letter.toString ++ "'")
      | some switch =>
          match switch.arity with
          | .alone => (table.letters rest).map fun found => (⟨letter, ""⟩ :: found.1, found.2)
          | .optional => .ok ([⟨letter, String.ofList rest⟩], none)
          | .valued =>
              if rest.isEmpty then .ok ([], some letter)
              else .ok ([⟨letter, String.ofList rest⟩], none)

/-- What a long switch gives, and the letter and name that wait for the next word. -/
def long (table : SwitchTable) (written : String) :
    Except String (List Given × Option (Char × String)) := do
  let (name, value) := splitValue written
  let (name, switch) ← table.byName name written
  match switch.arity, value with
  | .alone, some _ => .error ("option '--" ++ name ++ "' doesn't allow an argument")
  | .alone, none => .ok ([⟨switch.letter, ""⟩], none)
  | .optional, value => .ok ([⟨switch.letter, value.getD ""⟩], none)
  | .valued, some value => .ok ([⟨switch.letter, value⟩], none)
  | .valued, none => .ok ([], some (switch.letter, name))

/-- Tell the words of a filter apart, or say what is wrong with them. -/
def read (table : SwitchTable) : List String → Except String Reading
  | [] => .ok ⟨[], []⟩
  | "--" :: rest => .ok ⟨[], rest⟩
  | word :: rest =>
      match word.toList with
      | '-' :: '-' :: name =>
          match table.long (String.ofList name) with
          | .error fault => .error fault
          | .ok (given, none) => (read table rest).map (Reading.withGiven given)
          | .ok (_, some (letter, name)) =>
              match rest with
              | [] => .error ("option '--" ++ name ++ "' requires an argument")
              | value :: rest => (read table rest).map (Reading.withGiven [⟨letter, value⟩])
      | '-' :: first :: others =>
          match table.letters (first :: others) with
          | .error fault => .error fault
          | .ok (given, none) => (read table rest).map (Reading.withGiven given)
          | .ok (given, some letter) =>
              match rest with
              | [] => .error ("option requires an argument -- '" ++ letter.toString ++ "'")
              | value :: rest =>
                  (read table rest).map (Reading.withGiven (given ++ [⟨letter, value⟩]))
      | _ =>
          if table.operandsLast then .ok ⟨[], word :: rest⟩
          else (read table rest).map (Reading.withOperand word)

end SwitchTable

/-- What is said about words that cannot be told apart. -/
def misuse (program fault : String) : String :=
  program ++ ": " ++ fault ++ "\nTry '" ++ program ++ " --help' for more information.\n"

end SceneMarkup.Filters
