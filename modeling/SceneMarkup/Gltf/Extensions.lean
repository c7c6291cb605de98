import SceneMarkup.Json.Record

namespace SceneMarkup.Gltf

open Json (Tree Record Members)

/-!
# Extensions and extras

Any record of an asset may carry extensions and extras besides its own fields.
Some extensions are known while the others are kept as values; extras are kept
as they are written.
-/

/-- The extensions of one object: known ones as trees, others as values. -/
structure Extensions where
  known : Record
  others : Members
  deriving Repr

namespace Extensions

/-- No extensions. -/
def none : Extensions :=
  ⟨⟨[]⟩, []⟩

/-- The extension with the given name, if it is kept as a value. -/
def other? (extensions : Extensions) (name : String) : Option Json.Value :=
  Members.get? extensions.others name

/-- Read extensions that stand inside `depth` containers. -/
def ofTree? (names : List String) (depth : Nat) : Tree → Option Extensions
  | .object members => do
      let keyed ← Record.keyed? members
      let known ← Record.ofMembers? names members
      let others ← (keyed.filter fun member => !names.contains member.1).mapM fun member =>
        (member.2.value? (Tree.nestingLimit - depth - 1)).map fun value => (member.1, value)
      return ⟨known, Members.ofList others⟩
  | _ => .none

/-- Read the extensions of a record that stands inside `depth` containers, itself included. -/
def ofRecord? (record : Record) (depth : Nat) (names : List String) : Option Extensions :=
  (record.optional? "extensions" (ofTree? names depth)).map (·.getD none)

end Extensions

/-- What a record carries besides its own fields. -/
structure Additions where
  extensions : Extensions
  extras : Tree
  deriving Repr

namespace Additions

/-- The extras of a record, if every byte of them belongs to a character. -/
def extrasOf? (record : Record) : Option Tree :=
  let extras := (record.get? "extras").getD .null
  if extras.isLegible then some extras else none

/-- Read the extras of a record whose extensions, if they form a record at all, are not read. -/
def extrasAlone? (record : Record) : Option Tree := do
  let _ ← record.optional? "extensions" (Record.ofTree? [] 0)
  extrasOf? record

/-- Read the additions of a record that stands inside `depth` containers, itself included. -/
def ofRecord? (record : Record) (depth : Nat) (names : List String) : Option Additions := do
  return ⟨← Extensions.ofRecord? record depth names, ← extrasOf? record⟩

end Additions

end SceneMarkup.Gltf
