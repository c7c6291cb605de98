namespace SceneMarkup.Json

/-!
# JSON values

A value keeps whole numbers apart from other numbers and keeps the members of
an object sorted by key, one member a key.
-/

/-- A whole number of at most 64 bits, or a double. -/
inductive Number
  | integer (value : Int)
  | real (value : Float)
  deriving Repr, DecidableEq

/-- A JSON value. -/
inductive Value
  | null
  | bool (flag : Bool)
  | number (number : Number)
  | text (text : String)
  | array (items : List Value)
  | object (members : List (String × Value))
  deriving Repr, Inhabited

/-- The members of an object, sorted by key. -/
abbrev Members := List (String × Value)

namespace Members

/-- The value of the member `key`. -/
def get? (members : Members) (key : String) : Option Value :=
  (members.find? fun member => member.1 == key).map (·.2)

/-- Set the member `key`, replacing the value that it has. -/
def insert (key : String) (value : Value) : Members → Members
  | [] => [(key, value)]
  | member :: rest =>
      if key < member.1 then (key, value) :: member :: rest
      else if key = member.1 then (key, value) :: rest
      else member :: insert key value rest

/-- Insert members one after another; of two with one key the later one stays. -/
def ofList (members : List (String × Value)) : Members :=
  members.foldl (fun sorted member => insert member.1 member.2 sorted) []

end Members

namespace Value

/-- A natural number as a value. -/
def ofNat (n : Nat) : Value :=
  .number (.integer n)

/-- An object with the given members. -/
def ofMembers (members : List (String × Value)) : Value :=
  .object (Members.ofList members)

/-- The member `key` of an object. -/
def get? : Value → String → Option Value
  | .object members, key => Members.get? members key
  | _, _ => none

/-- The number held by a value, if it is a natural number of at most 64 bits. -/
def natural? : Value → Option Nat
  | .number (.integer value) => if 0 ≤ value then some value.toNat else none
  | _ => none

end Value

end SceneMarkup.Json
