import SceneMarkup.Filters.Filter
import SceneMarkup.Filters.OctetList
import SceneMarkup.Filters.Switches

namespace SceneMarkup.Filters

/-!
# Translating octets

Two lists of octets say what becomes of each octet: it is replaced by its
partner in the second list, deleted, or squeezed out of runs.
-/

/-- Keep one octet of each run of an octet for which `squeezes` holds. -/
def squeezed (squeezes : Char → Bool) : Octets → Octets
  | first :: second :: rest =>
      if first = second ∧ squeezes first = true then squeezed squeezes (second :: rest)
      else first :: squeezed squeezes (second :: rest)
  | rest => rest

/-- What `tr` is asked to do. -/
structure Translation where
  deletes : Bool
  squeezes : Bool
  complements : Bool
  /-- Octets of the first list that have no partner are left alone. -/
  truncates : Bool

/-- The switches of `tr`. -/
def translateSwitches : SwitchTable where
  switches := [
    { letter := 'c', names := ["complement"] },
    { letter := 'C' },
    { letter := 'd', names := ["delete"] },
    { letter := 's', names := ["squeeze-repeats"] },
    { letter := 't', names := ["truncate-set1"] },
    { letter := 'A' }]
  operandsLast := true

namespace Translation

/-- What the switches ask for. -/
def ofReading (reading : Reading) : Translation where
  deletes := reading.has 'd'
  squeezes := reading.has 's'
  complements := reading.has 'c' || reading.has 'C'
  truncates := reading.has 't'

/-- How many lists of octets are needed. -/
def leastLists (task : Translation) : Nat :=
  if task.deletes == task.squeezes then 2 else 1

/-- How many lists of octets there may be. -/
def mostLists (task : Translation) : Nat :=
  if task.deletes && !task.squeezes then 1 else 2

/-- What is wrong with the number of operands, if anything. -/
def operandFault? (task : Translation) (words operands : List String) : Option String :=
  let count := operands.length
  if count < task.leastLists then
    if count = 0 then some "missing operand"
    else
      some ("missing operand after '" ++ words.getLast?.getD "" ++ "'\n"
        ++ if task.squeezes then
            "Two strings must be given when both deleting and squeezing repeats."
          else "Two strings must be given when translating.")
  else if task.mostLists < count then
    some ("extra operand '" ++ (operands[task.mostLists]?).getD "" ++ "'"
      ++ if count = 2 then
          "\nOnly one string may be given when deleting without squeezing repeats."
        else "")
  else none

/-- The octets that are translated, in order: those listed, or all others. -/
def domain (task : Translation) (source : List Part) : List Char :=
  let listed := Part.listed source
  if task.complements then OctetClass.everyOctet.filter fun octet => !listed.contains octet
  else listed

/-- The second list with its filling part, if it has one, as long as the first list asks for. -/
def filled (size : Nat) (target : List Part) : List Part :=
  let missing := size - (Part.listed target).length
  target.map fun part =>
    match part with
    | .repeated octet 0 => .repeated octet missing
    | other => other

/-- The second list made as long as the first one by its last octet. -/
def extended (size : Nat) (target : List Part) : Except SetFault (List Char) :=
  let octets := Part.listed target
  match target.getLast?, octets.getLast? with
  | some (.named _ _), _ => .error .endsWithClass
  | some (.repeated octet _), _ => .ok (octets ++ List.replicate (size - octets.length) octet)
  | _, some octet => .ok (octets ++ List.replicate (size - octets.length) octet)
  | _, none => .error .emptyTarget

/-- Whether classes of one case in the second list face such classes in the first one. -/
def isAligned (source target : List Part) : Bool :=
  let size := (Part.listed source).length
  (Part.casedPlaces 0 target).all fun place =>
    size < place || (Part.casedPlaces 0 source).contains place

/-- The partners of the octets that are translated, in order. -/
def partners (task : Translation) (source target : List Part) : Except SetFault (List Char) := do
  let size := (task.domain source).length
  if 1 < target.countP Part.fills then throw .fillingTwice
  let target := filled size target
  if target.any Part.isEqual then throw .equalsAsTarget
  if target.any fun part => part.isClass && !part.isCased then throw .classAsTarget
  if !task.complements && !isAligned source target then throw .misaligned
  let listed := Part.listed target
  let found ←
    if listed.length < size ∧ task.truncates = false then
      if listed.isEmpty then throw .emptyTarget else extended size target
    else .ok listed
  let homogeneous := found.all fun octet => found.head? == some octet
  if task.complements && source.any Part.isClass
      && !(found.length == size && homogeneous) then
    throw .manyTargets
  return found

/-- What an octet becomes; of two partners the later one counts. -/
def translated (pairs : List (Char × Char)) (octet : Char) : Char :=
  ((pairs.reverse.find? fun pair => pair.1 == octet).map (·.2)).getD octet

/-- Do what is asked with one or two lists of octets. -/
def applied (task : Translation) (source : List Part) (target : Option (List Part))
    (text : Octets) : Except SetFault Octets := do
  if source.any Part.fills then throw .fillingFirst
  let listed := Part.listed source
  let inside (octet : Char) : Bool := listed.contains octet != task.complements
  match task.deletes, target with
  | true, none => return text.filter fun octet => !inside octet
  | true, some target =>
      if target.any Part.fills then throw .fillingUnused
      let kept := text.filter fun octet => !inside octet
      return squeezed (Part.listed target).contains kept
  | false, none => return squeezed inside text
  | false, some target =>
      let found ← task.partners source target
      let pairs := (task.domain source).zip found
      let table := (OctetClass.everyOctet.map (translated pairs)).toArray
      let result := text.map fun octet => (table[octet.toNat]?).getD octet
      return if task.squeezes then squeezed found.contains result else result

end Translation

/-- Translate, delete or squeeze octets, as the words say. -/
def translate : Filter := fun _ words text =>
  match translateSwitches.read words with
  | .error fault => .failure 1 (misuse "tr" fault)
  | .ok reading =>
      let task := Translation.ofReading reading
      match task.operandFault? words reading.operands with
      | some fault => .failure 1 (misuse "tr" fault)
      | none =>
          let result := do
            let lists ← reading.operands.mapM fun word => partsOf (Octets.ofText word)
            match lists with
            | source :: rest => task.applied source rest.head? text
            | [] => .ok text
          match result with
          | .ok octets => .success octets
          | .error fault => .failure 1 ("tr: " ++ fault.message ++ "\n")

end SceneMarkup.Filters
