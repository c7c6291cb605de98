import SceneMarkup.Files.Path
import SceneMarkup.Json.Record

namespace SceneMarkup.Job

open Files (Path)
open Json (Members Record Tree)

/-!
# Batch configurations

A configuration lists assets, settings for all of them, and settings of single
ones.
-/

/-- One asset of a batch. -/
structure BatchAsset where
  asset : Path
  /-- The name of the component's file, without its extension. -/
  className : String
  /-- Settings that lie over those of the batch. -/
  options : Members
  deriving Repr

/-- A batch. -/
structure BatchConfig where
  /-- Where components are written. -/
  sourceDirectory : Path
  /-- Where assets are copied to, so that they can be served. -/
  publicDirectory : Path
  /-- Settings that lie over the defaults. -/
  options : Members
  assets : List BatchAsset
  deriving Repr

/-- A path in a configuration. -/
def configPath? (tree : Tree) : Option Path :=
  tree.text?.map fun text => ⟨text⟩

/-- Settings in a configuration, inside `depth` containers. -/
def configOptions? (depth : Nat) (tree : Tree) : Option Members :=
  match tree.value? (Tree.nestingLimit - depth) with
  | some (.object members) => some members
  | _ => none

namespace BatchAsset

/-- Read one asset. -/
def ofTree? (tree : Tree) : Option BatchAsset := do
  let record ← Record.ofTree? ["gltf", "className", "options"] 2 tree
  return {
    asset := ← record.required? "gltf" configPath?
    className := ← record.required? "className" Tree.text?
    options := ← record.given? "options" [] (configOptions? 3) }

end BatchAsset

namespace BatchConfig

/-- Read a batch. -/
def ofTree? (tree : Tree) : Option BatchConfig := do
  let record ← Record.ofTree? ["srcDir", "publicDir", "defaultOptions", "assets"] 4 tree
  return {
    sourceDirectory := ← record.required? "srcDir" configPath?
    publicDirectory := ← record.required? "publicDir" configPath?
    options := ← record.given? "defaultOptions" [] (configOptions? 1)
    assets := ← record.required? "assets" (Tree.list? BatchAsset.ofTree?) }

/-- Read a batch from a JSON text. -/
def ofText? (text : String) : Option BatchConfig :=
  (Tree.ofText? text).bind ofTree?

end BatchConfig

end SceneMarkup.Job
