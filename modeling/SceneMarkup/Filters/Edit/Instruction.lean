import SceneMarkup.Filters.Pattern.Reader

namespace SceneMarkup.Filters

/-!
# Instructions of an editor

An editor takes the lines of a text one by one into its space and follows a
script there.  An instruction of the script says for which lines it is and what
it does with the space.
-/

/-- A choice of lines that is made line by line. -/
inductive Address
  | line (number : Nat)
  /-- Every line that is a number of steps after the first one. -/
  | every (first step : Nat)
  | last
  /-- The lines with a match; without a pattern, of the one that was looked for last. -/
  | matching (search : Option Search)
  deriving Repr, DecidableEq

/-- Where a range of lines ends. -/
inductive RangeEnd
  | address (address : Address)
  /-- So many lines after the first one. -/
  | further (count : Nat)
  /-- At a line whose number is a multiple. -/
  | multiple (factor : Nat)
  deriving Repr, DecidableEq

/-- The lines that an instruction is for. -/
inductive LineChoice
  | all
  | only (address : Address)
  | range (first : Address) (final : RangeEnd)
  deriving Repr, DecidableEq

/-- What happens to the case of letters in a replacement. -/
inductive CaseRule
  | kept
  | lower
  | upper
  deriving Repr, DecidableEq

/-- What happens to the case of letters, where the first one may have a rule of its own. -/
structure CaseChange where
  rule : CaseRule := .kept
  first : Option CaseRule := none
  deriving Repr, DecidableEq

/-- A part of a replacement: a text, and after it perhaps what a group took. -/
structure ReplacementPart where
  text : Octets
  group : Option Nat
  change : CaseChange
  deriving Repr, DecidableEq

/-- Put a replacement in the place of matches. -/
structure Substitution where
  search : Option Search
  replacement : List ReplacementPart
  /-- The match that is replaced first, counted from one. -/
  first : Nat
  /-- Whether the matches after it are replaced as well. -/
  all : Bool
  prints : Bool
  file : Option String
  deriving Repr, DecidableEq

/-- When a jump is made. -/
inductive JumpRule
  | always
  /-- Something was replaced in the space since it was read or since the last such jump. -/
  | replaced
  | notReplaced
  deriving Repr, DecidableEq

/-- What an instruction does. -/
inductive Command
  | openBlock
  | closeBlock
  | label (name : Octets)
  /-- Go on after a label, or after the whole script. -/
  | jump (rule : JumpRule) (label : Octets)
  | substitute (substitution : Substitution)
  /-- Put other octets in the place of some. -/
  | exchange (pairs : List (Char × Char))
  | delete
  /-- Delete the first line of the space and follow the script again with the rest. -/
  | deleteFirst
  | empty
  | print
  | printFirst
  | printNumber
  | printName
  /-- Write the space so that every octet shows, in lines of a length. -/
  | printPlainly (length : Option Nat)
  | next
  | appendNext
  | copyToHold
  | appendToHold
  | copyFromHold
  | appendFromHold
  | swapWithHold
  /-- Write a text before the space. -/
  | insert (text : Octets)
  /-- Write a text after the space. -/
  | append (text : Octets)
  /-- Write a text in the place of the space. -/
  | replaceBy (text : Octets)
  | appendFile (name : String)
  | appendLineOf (name : String)
  | writeTo (name : String)
  | writeFirstTo (name : String)
  | quit (exitCode : Nat)
  | quitSilently (exitCode : Nat)
  deriving Repr, DecidableEq

/-- An instruction. -/
structure Instruction where
  /-- The number of instructions before it. -/
  number : Nat
  choice : LineChoice
  /-- The instruction is for all lines but the chosen ones. -/
  negated : Bool
  command : Command
  deriving Repr, DecidableEq

namespace Instruction

/-- Where the instructions of a block end that starts before them. -/
def afterBlock : Nat → List Instruction → List Instruction
  | _, [] => []
  | depth, instruction :: rest =>
      match instruction.command, depth with
      | .openBlock, _ => afterBlock (depth + 1) rest
      | .closeBlock, 0 => rest
      | .closeBlock, depth + 1 => afterBlock depth rest
      | _, _ => afterBlock depth rest

/-- The instructions after the last label with a name, if there is one. -/
def afterLabel? (name : Octets) : List Instruction → Option (List Instruction)
  | [] => none
  | instruction :: rest =>
      (afterLabel? name rest).orElse fun _ =>
        if instruction.command = .label name then some rest else none

/-- The label that an instruction needs. -/
def neededLabel? (instruction : Instruction) : Option Octets :=
  match instruction.command with
  | .jump _ name => if name.isEmpty then none else some name
  | _ => none

/-- The names of the files that an instruction writes. -/
def writtenFile? (instruction : Instruction) : Option String :=
  match instruction.command with
  | .writeTo name => some name
  | .writeFirstTo name => some name
  | .substitute substitution => substitution.file
  | _ => none

end Instruction

end SceneMarkup.Filters
