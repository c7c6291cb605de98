import SceneMarkup.Filters.Edit.Instruction

namespace SceneMarkup.Filters

/-!
# Replacements

A replacement is a text with the match, or what a group of it took, put in at
some places.  Letters after a backslash change the case of what follows.
-/

/-- The octets of a text in a case. -/
def CaseRule.applied (rule : CaseRule) (octet : Char) : Char :=
  match rule with
  | .kept => octet
  | .lower => octet.toLower
  | .upper => octet.toUpper

/-- A text with its case changed. -/
def CaseChange.applied (change : CaseChange) : Octets → Octets
  | [] => []
  | octet :: rest =>
      (change.first.getD change.rule).applied octet :: rest.map change.rule.applied

namespace ReplacementPart

/-- What a replacement is that is read in part; texts and parts are held backwards. -/
structure Reading where
  parts : List ReplacementPart := []
  text : Octets := []
  change : CaseChange := {}
  deriving Repr, DecidableEq

namespace Reading

/-- Finish a part. -/
def withPart (reading : Reading) (group : Option Nat) : Reading where
  parts := ⟨reading.text.reverse, group, reading.change⟩ :: reading.parts
  text := []
  change := { reading.change with first := none }

/-- Add an octet to the part that is read. -/
def withOctet (reading : Reading) (octet : Char) : Reading :=
  { reading with text := octet :: reading.text }

/-- Change the case from here on. -/
def withRule (reading : Reading) (rule : CaseRule) : Reading :=
  { reading.withPart none with change := ⟨rule, none⟩ }

/-- Change the case of the next letter. -/
def withFirst (reading : Reading) (rule : CaseRule) : Reading :=
  let ended := reading.withPart none
  { ended with change := { ended.change with first := some rule } }

/-- Take a letter that follows a backslash. -/
def withEscape (reading : Reading) (letter : Char) : Reading :=
  match letter with
  | 'L' => reading.withRule .lower
  | 'U' => reading.withRule .upper
  | 'E' => reading.withRule .kept
  | 'l' => reading.withFirst .lower
  | 'u' => reading.withFirst .upper
  | _ =>
      if letter.isDigit then reading.withPart (some (letter.toNat - '0'.toNat))
      else (reading.withOctet letter).withPart none

/-- Read the rest of a replacement. -/
def finished (reading : Reading) : Octets → List ReplacementPart
  | [] =>
      if reading.text.isEmpty then reading.parts.reverse else (reading.withPart none).parts.reverse
  | ['\\'] => ((reading.withOctet '\\').withPart none).parts.reverse
  | '\\' :: letter :: rest => (reading.withEscape letter).finished rest
  | '&' :: rest => (reading.withPart (some 0)).finished rest
  | octet :: rest => (reading.withOctet octet).finished rest

end Reading

/-- The parts of a replacement. -/
def ofOctets (text : Octets) : List ReplacementPart :=
  ({} : Reading).finished text

/-- The greatest number of a group that parts name. -/
def greatestGroup (parts : List ReplacementPart) : Nat :=
  (parts.filterMap (·.group)).foldl max 0

/--
The text of a part, where `pending` is the rule for the first letter that an empty group before it
left over, and the rule that this part leaves over.
-/
def written (taken : Nat → Octets) (pending : Option CaseRule) (part : ReplacementPart) :
    Octets × Option CaseRule :=
  let change := { part.change with first := part.change.first.orElse fun _ => pending }
  let before := change.applied part.text
  let change := if part.text.isEmpty then change else { change with first := none }
  match part.group with
  | none => (before, none)
  | some group =>
      let octets := taken group
      if octets.isEmpty then (before, part.change.first.bind fun _ => change.first)
      else (before ++ change.applied octets, none)

/-- The text of parts one after another. -/
def allWritten (taken : Nat → Octets) (pending : Option CaseRule) : List ReplacementPart → Octets
  | [] => []
  | part :: rest =>
      let (octets, pending) := part.written taken pending
      octets ++ allWritten taken pending rest

end ReplacementPart

/-- What a group of a match took; group zero is the match itself. -/
def Match.taken (found : Match) (text : Array Char) (group : Nat) : Octets :=
  if group = 0 then (text.extract found.start found.stop).toList
  else
    match (found.groups[group]?).join with
    | some (start, stop) => (text.extract start stop).toList
    | none => []

namespace Substitution

/-- The text for a match. -/
def replaced (substitution : Substitution) (text : Array Char) (found : Match) : Octets :=
  ReplacementPart.allWritten (found.taken text) none substitution.replacement

/--
Replace matches from `place` on in at most `steps` steps.  `count` matches were seen before, and an
empty match at `barred` would touch the one before it.  The flag tells whether any is replaced.
-/
def replacedFrom (substitution : Substitution) (search : Search) (text : Array Char) :
    Nat → Nat → Nat → Option Nat → Octets × Bool
  | 0, place, _, _ => ((text.extract place text.size).toList, false)
  | steps + 1, place, count, barred =>
      match search.first? text place with
      | none => ((text.extract place text.size).toList, false)
      | some found =>
          if found.start = found.stop ∧ barred = some found.start then
            let passed := (text.extract place (found.start + 1)).toList
            if text.size ≤ found.start then (passed, false)
            else
              let (rest, isReplaced) :=
                replacedFrom substitution search text steps (found.start + 1) count none
              (passed ++ rest, isReplaced)
          else
            let before := (text.extract place found.start).toList
            let isChosen := substitution.first ≤ count + 1
            let written :=
              if isChosen then substitution.replaced text found else found.taken text 0
            if isChosen && !substitution.all then
              (before ++ written ++ (text.extract found.stop text.size).toList, true)
            else if found.start = found.stop then
              if text.size ≤ found.stop then (before ++ written, isChosen)
              else
                let passed := (text.extract found.stop (found.stop + 1)).toList
                let (rest, isReplaced) :=
                  replacedFrom substitution search text steps (found.stop + 1) (count + 1) none
                (before ++ written ++ passed ++ rest, isChosen || isReplaced)
            else
              let (rest, isReplaced) :=
                replacedFrom substitution search text steps found.stop (count + 1)
                  (some found.stop)
              (before ++ written ++ rest, isChosen || isReplaced)

/-- A text with matches replaced, if there is one to replace. -/
def applied? (substitution : Substitution) (search : Search) (octets : Octets) : Option Octets :=
  let text := octets.toArray
  let (result, isReplaced) :=
    substitution.replacedFrom search text (2 * text.size + 2) 0 0 none
  if isReplaced then some result else none

end Substitution

end SceneMarkup.Filters
