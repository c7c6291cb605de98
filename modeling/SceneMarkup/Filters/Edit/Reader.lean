import SceneMarkup.Filters.Edit.Replacement
import SceneMarkup.Filters.Edit.Scan

namespace SceneMarkup.Filters

/-!
# Reading instructions
-/

namespace Scan

/-- The letters after a pattern that stands as an address: case means nothing, and by line. -/
def addressFlags : Nat → Bool → Bool → Scan (Bool × Bool)
  | 0, folds, byLine => return (folds, byLine)
  | steps + 1, folds, byLine => do
      passBlanks
      match ← peek with
      | some 'I' =>
          pass
          addressFlags steps true byLine
      | some 'M' =>
          pass
          addressFlags steps folds true
      | _ => return (folds, byLine)

/-- An address that is a pattern after its first octet. -/
def patternAddress (manner : ScriptManner) (first : Char) : Scan Address := do
  let delimiter ← if first = '\\' then take else pure (some first)
  let text ← upTo delimiter true .openAddress
  let (folds, byLine) ← addressFlags (← get).length false false
  return .matching (← pattern manner text folds byLine)

/-- An address that is a number, perhaps with a step after it. -/
def numberAddress : Scan Address := do
  let first ← number
  passBlanks
  if ← passes '~' then
    passBlanks
    let step ← number
    return if step = 0 then .line first else .every first step
  return .line first

/-- An address, if one comes next; some of them only end a range. -/
def address? (manner : ScriptManner) : Scan (Option RangeEnd) := do
  match ← peek with
  | none => return none
  | some octet =>
      if octet.isDigit then return some (.address (← numberAddress))
      else if octet = '/' ∨ octet = '\\' then
        pass
        return some (.address (← patternAddress manner octet))
      else if octet = '$' then
        pass
        return some (.address .last)
      else if octet = '+' ∨ octet = '~' then
        pass
        passBlanks
        let count ← number
        return some (if octet = '+' then .further count else .multiple count)
      else return none

/--
Refuse the line zero as an address, where the octet after it is passed; alone it may stand before
`r`, whose file then comes before the first line.
-/
def refuseZero (first : Address) (isAlone : Bool) : Scan Unit := do
  passBlanks
  if first = .line 0 && !(isAlone && (← peek) = some 'r') then
    pass
    throw .lineZero

/-- The lines that an instruction is for. -/
def choice (manner : ScriptManner) : Scan LineChoice := do
  match ← address? manner with
  | none => return .all
  | some (.address first) =>
      passBlanks
      if ← passes ',' then
        passBlanks
        match ← address? manner with
        | none =>
            pass
            throw .strayComma
        | some (.address (.matching search)) => return .range first (.address (.matching search))
        | some final =>
            refuseZero first false
            return .range first final
      else
        refuseZero first true
        return .only first
  | some _ => throw .relativeFirst

/-- Whether the chosen lines are left out. -/
def negation : Scan Bool := do
  passBlanks
  if ← passes '!' then
    passBlanks
    if ← passes '!' then throw .negatedTwice
    return true
  return false

/-- The letters and the number after a replacement. -/
structure Flags where
  folds : Bool := false
  byLine : Bool := false
  all : Bool := false
  prints : Bool := false
  first : Option Nat := none
  file : Option String := none
  deriving Repr, DecidableEq

/-- Take the letters and the number after a replacement, in at most `steps` steps. -/
def flags (manner : ScriptManner) : Nat → Flags → Scan Flags
  | 0, found => return found
  | steps + 1, found => do
      passBlanks
      match ← peek with
      | none => return found
      | some octet =>
          if octet = '\x7d' ∨ octet = '#' then return found
          else if octet.isDigit then
            if found.first.isSome then
              pass
              throw .numberTwice
            let first ← number
            if first = 0 then throw .numberZero
            flags manner steps { found with first := some first }
          else
            pass
            match octet with
            | '\n' => return found
            | ';' => return found
            | 'i' => flags manner steps { found with folds := true }
            | 'I' => flags manner steps { found with folds := true }
            | 'm' => flags manner steps { found with byLine := true }
            | 'M' => flags manner steps { found with byLine := true }
            | 'g' =>
                if found.all then throw .allTwice
                flags manner steps { found with all := true }
            | 'p' =>
                if found.prints then throw .printTwice
                flags manner steps { found with prints := true }
            | 'w' => return { found with file := some (← fileName manner) }
            | 'e' => throw .forbidden
            | _ => throw .unknownFlag

/-- Read a substitution after its letter. -/
def substitution (manner : ScriptManner) : Scan Substitution := do
  let delimiter ← take
  let text ← upTo delimiter true .openSubstitution
  let replacement ← upTo delimiter false .openSubstitution
  let parts := ReplacementPart.ofOctets (← orFail (Escape.resolved false replacement))
  let flags ← flags manner ((← get).length + 1) {}
  let search ← pattern manner text flags.folds flags.byLine
  let greatest := ReplacementPart.greatestGroup parts
  if search.any fun search => search.groups < greatest then throw (.missingGroup greatest)
  return ⟨search, parts, flags.first.getD 1, flags.all, flags.prints, flags.file⟩

/-- Read an exchange of octets after its letter. -/
def exchange : Scan Command := do
  let delimiter ← take
  let sources ← upTo delimiter false .openExchange
  let targets ← upTo delimiter false .openExchange
  let sources := Escape.unguarded (← orFail (Escape.resolved false sources))
  let targets := Escape.unguarded (← orFail (Escape.resolved false targets))
  if sources.length ≠ targets.length then throw .unequalLengths
  instructionEnd
  return .exchange (sources.zip targets)

/-- A command that is a letter only. -/
def plainCommand? (letter : Char) : Option Command :=
  match letter with
  | '=' => some .printNumber
  | 'd' => some .delete
  | 'D' => some .deleteFirst
  | 'F' => some .printName
  | 'g' => some .copyFromHold
  | 'G' => some .appendFromHold
  | 'h' => some .copyToHold
  | 'H' => some .appendToHold
  | 'n' => some .next
  | 'N' => some .appendNext
  | 'p' => some .print
  | 'P' => some .printFirst
  | 'x' => some .swapWithHold
  | 'z' => some .empty
  | _ => none

/-- A command with what follows its letter; a text may have no end yet. -/
def longCommand (manner : ScriptManner) (letter : Char) : Scan (Command × Option Octets) := do
  match letter with
  | '\x7b' => return (.openBlock, none)
  | 's' => return (.substitute (← substitution manner), none)
  | 'y' => return (← exchange, none)
  | ':' =>
      let name ← labelName
      if name.isEmpty then throw .missingLabel
      return (.label name, none)
  | 'b' => return (.jump .always (← labelName), none)
  | 't' => return (.jump .replaced (← labelName), none)
  | 'T' => return (.jump .notReplaced (← labelName), none)
  | 'r' => return (.appendFile (← fileName manner), none)
  | 'R' => return (.appendLineOf (← fileName manner), none)
  | 'w' => return (.writeTo (← fileName manner), none)
  | 'W' => return (.writeFirstTo (← fileName manner), none)
  | 'l' =>
      let length ← optionalNumber
      instructionEnd
      return (.printPlainly length, none)
  | 'q' =>
      let exitCode ← optionalNumber
      instructionEnd
      return (.quit (exitCode.getD 0 % 256), none)
  | 'Q' =>
      let exitCode ← optionalNumber
      instructionEnd
      return (.quitSilently (exitCode.getD 0 % 256), none)
  | 'e' => throw .forbidden
  | _ =>
      if ['a', 'i', 'c'].contains letter then
        let (raw, isOpen) ← text
        let content ← orFail (textOf raw isOpen)
        let command : Command :=
          if letter = 'a' then .append content
          else if letter = 'i' then .insert content
          else .replaceBy content
        return (command, if isOpen then some raw else none)
      else throw (.unknownCommand letter)

/-- The command that comes next where `depth` blocks are open; a text may have no end yet. -/
def command (manner : ScriptManner) (depth : Nat) (choice : LineChoice) :
    Scan (Option Command × Option Octets) := do
  passBlanks
  match ← take with
  | none => throw .missingCommand
  | some letter =>
      if letter = '#' then
        if choice ≠ .all then throw .addressedComment
        let _ ← takeWhile (· != '\n')
        return (none, none)
      if letter = '\x7d' then
        if depth = 0 then throw .strayClose
        if choice ≠ .all then throw .addressedClose
        instructionEnd
        return (some .closeBlock, none)
      if letter = ':' && choice ≠ .all then throw .addressedLabel
      if letter = 'v' then
        let wanted := ((← labelName).toText.splitOn ".").map fun part => part.toNat?.getD 0
        if wanted.head?.any (4 < ·) then throw .tooNew
        return (none, none)
      let isRange :=
        match choice with
        | .range _ _ => true
        | _ => false
      if (letter = 'q' || letter = 'Q') && isRange then throw .oneAddressOnly
      match plainCommand? letter with
      | some command =>
          instructionEnd
          return (some command, none)
      | none =>
          let (command, raw) ← longCommand manner letter
          return (some command, raw)

/-- The instruction that comes next, unless it is a comment; a text may have no end yet. -/
def instruction (manner : ScriptManner) (depth number : Nat) :
    Scan (Option Instruction × Option Octets) := do
  let choice ← choice manner
  let negated ← negation
  let (command, raw) ← command manner depth choice
  return (command.map fun command => ⟨number, choice, negated, command⟩, raw)

end Scan

end SceneMarkup.Filters
