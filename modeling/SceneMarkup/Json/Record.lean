import SceneMarkup.Json.Tree

namespace SceneMarkup.Json

/-!
# Records in JSON

A record is written as an object with a member for each field, or as an array
with the fields in order.  Members that name no field are passed over unread; a
field may be given once.  An array has to go on up to a field of which the
record knows that those after it may be left out.
-/

/-- The trees given for the fields of a record. -/
structure Record where
  fields : List (String × Tree)
  deriving Repr

namespace Record

/-- The members of an object, if all keys are texts. -/
def keyed? : List (Wording × Tree) → Option (List (String × Tree))
  | [] => some []
  | (key, item) :: rest => key.text?.bind fun key => (keyed? rest).map ((key, item) :: ·)

/-- The record of the members that name fields. -/
def ofMembers? (names : List String) (members : List (Wording × Tree)) : Option Record :=
  (keyed? members).bind fun keyed =>
    let known := keyed.filter fun field => names.contains field.1
    if (known.map (·.1)).Nodup then some ⟨known⟩ else none

/-- The record of a tree; `names` lists the fields in order, an array has `least` of them or more. -/
def ofTree? (names : List String) (least : Nat) : Tree → Option Record
  | .object members => ofMembers? names members
  | .array items =>
      if least ≤ items.length ∧ items.length ≤ names.length then some ⟨names.zip items⟩ else none
  | _ => none

/-- The tree given for a field. -/
def get? (record : Record) (name : String) : Option Tree :=
  (record.fields.find? fun field => field.1 == name).map (·.2)

/-- Read a field that has to be given. -/
def required? (record : Record) (name : String) (read : Tree → Option α) : Option α :=
  (record.get? name).bind read

/-- Read a field that may be absent or null. -/
def optional? (record : Record) (name : String) (read : Tree → Option α) : Option (Option α) :=
  match record.get? name with
  | none => some none
  | some .null => some none
  | some tree => (read tree).map some

/-- Read a field that has a value of its own when it is absent. -/
def given? (record : Record) (name : String) (absent : α) (read : Tree → Option α) : Option α :=
  match record.get? name with
  | none => some absent
  | some tree => read tree

end Record

namespace Tree

/-- A text. -/
def text? : Tree → Option String
  | .text wording => wording.text?
  | _ => none

/-- A truth value. -/
def flag? : Tree → Option Bool
  | .bool flag => some flag
  | _ => none

/-- A natural number of at most 64 bits. -/
def natural? : Tree → Option Nat
  | .number literal =>
      match literal.number? with
      | some (.integer value) => if 0 ≤ value then some value.toNat else none
      | _ => none
  | _ => none

/-- An array whose items can all be read. -/
def list? (read : Tree → Option α) : Tree → Option (List α)
  | .array items => items.mapM read
  | _ => none

end Tree

end SceneMarkup.Json
