import SceneMarkup.Json.Tree
import SceneMarkup.Options.Basic

namespace SceneMarkup.Options

open Json (Value Members Tree Wording)

/-!
# Settings as JSON

Settings are written as one object with a member for every field.  They are read
from an object, where unknown members are ignored and absent ones keep their
defaults, or from an array that lists a first part of the fields in order.
-/

/-- The keys of the fields, in the order of the record. -/
def fieldNames : List String :=
  ["precision", "keepnames", "keepgroups", "shadows", "meta", "types", "draco", "instance",
    "instanceall", "aggressive", "debug", "header", "size", "root", "transform", "formatter"]

/-- `verbose` is a second spelling of `keepnames`. -/
def canonicalName (key : String) : String :=
  if key = "verbose" then "keepnames" else key

/-- A whole number that fits 32 bits. -/
def wordOf? : Value → Option UInt32
  | .number (.integer value) =>
      if 0 ≤ value ∧ value.toNat < UInt32.size then some (UInt32.ofNat value.toNat) else none
  | _ => none

/-- A truth value. -/
def flagOf? : Value → Option Bool
  | .bool flag => some flag
  | _ => none

/-- A text, or nothing for null. -/
def textOf? : Value → Option (Option String)
  | .null => some none
  | .text text => some (some text)
  | _ => none

/-- Any value, or nothing for null. -/
def argumentOf : Value → Option Value
  | .null => none
  | value => some value

/-- Set the field with the given key; a key that names no field changes nothing. -/
def set? (options : Options) (key : String) (value : Value) : Option Options :=
  match key with
  | "precision" => (wordOf? value).map fun word => { options with precision := word }
  | "keepnames" => (flagOf? value).map fun flag => { options with keepNames := flag }
  | "keepgroups" => (flagOf? value).map fun flag => { options with keepGroups := flag }
  | "shadows" => (flagOf? value).map fun flag => { options with shadows := flag }
  | "meta" => (flagOf? value).map fun flag => { options with includeData := flag }
  | "types" => (flagOf? value).map fun flag => { options with types := flag }
  | "draco" => some { options with draco := argumentOf value }
  | "instance" => (flagOf? value).map fun flag => { options with instanceShared := flag }
  | "instanceall" => (flagOf? value).map fun flag => { options with instanceAll := flag }
  | "aggressive" => (flagOf? value).map fun flag => { options with aggressive := flag }
  | "debug" => (flagOf? value).map fun flag => { options with debug := flag }
  | "header" => (textOf? value).map fun text => { options with header := text }
  | "size" => (textOf? value).map fun text => { options with size := text }
  | "root" => (textOf? value).map fun text => { options with root := text }
  | "transform" => (flagOf? value).map fun flag => { options with deduplicate := flag }
  | "formatter" => (textOf? value).map fun text => { options with formatter := text }
  | _ => some options

/-- Set one field after another on top of the defaults; no field may be given twice. -/
def ofFields? (fields : List (String × Value)) : Option Options :=
  let named := fields.map fun field => (canonicalName field.1, field.2)
  let known := (named.map (·.1)).filter fieldNames.contains
  if known.Nodup then named.foldlM (fun options field => options.set? field.1 field.2) {} else none

/-- Settings from a value: an object, or an array in field order. -/
def ofValue? : Value → Option Options
  | .object members => ofFields? members
  | .array items =>
      if items.length ≤ fieldNames.length then ofFields? (fieldNames.zip items) else none
  | _ => none

/-- The members of an object that name fields, in the order written, as values. -/
def knownMembers? : List (Wording × Tree) → Option (List (String × Value))
  | [] => some []
  | (key, item) :: rest =>
      key.text?.bind fun key =>
        if fieldNames.contains (canonicalName key) then
          (item.value? (Tree.nestingLimit - 1)).bind fun value =>
            (knownMembers? rest).map ((key, value) :: ·)
        else knownMembers? rest

/-- Settings from a JSON text, in which repeated keys are still told apart. -/
def ofText? (text : String) : Option Options :=
  (Tree.ofText? text).bind fun tree =>
    match tree with
    | .object members => (knownMembers? members).bind ofFields?
    | .array _ => (tree.value? Tree.nestingLimit).bind ofValue?
    | _ => none

/-- A text, or null. -/
def optionalText : Option String → Value
  | none => .null
  | some text => .text text

/-- One member for every field. -/
def toMembers (options : Options) : Members :=
  Members.ofList
    [("precision", Value.ofNat options.precision.toNat),
      ("keepnames", .bool options.keepNames),
      ("keepgroups", .bool options.keepGroups),
      ("shadows", .bool options.shadows),
      ("meta", .bool options.includeData),
      ("types", .bool options.types),
      ("draco", options.draco.getD .null),
      ("instance", .bool options.instanceShared),
      ("instanceall", .bool options.instanceAll),
      ("aggressive", .bool options.aggressive),
      ("debug", .bool options.debug),
      ("header", optionalText options.header),
      ("size", optionalText options.size),
      ("root", optionalText options.root),
      ("transform", .bool options.deduplicate),
      ("formatter", optionalText options.formatter)]

/-- Lay an object of fields over the settings. -/
def merged? (options : Options) (overlay : Members) : Option Options :=
  ofFields? (overlay.foldl
    (fun members field => Members.insert (canonicalName field.1) field.2 members)
    options.toMembers)

end SceneMarkup.Options
