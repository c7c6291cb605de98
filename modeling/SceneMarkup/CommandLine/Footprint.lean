import SceneMarkup.CommandLine.Run

namespace SceneMarkup.CommandLine

open Files (Entry FileTree Path Place)
open Job (BatchConfig)

/-!
# The footprint of a run

Which paths a run looks at, so that they can be looked up beforehand, and what
it leaves changed.
-/

/-- An asset's path, and the paths where the conversion to an output writes. -/
def conversionPaths (input output : Path) : List Path :=
  [input, output, Job.temporaryPath output]

/-- The paths that a command line names. -/
def Arguments.paths (arguments : Arguments) : List Path :=
  let named :=
    match arguments.model with
    | some model =>
        let output := arguments.output.orElse fun _ =>
          defaultOutput? model arguments.options.types
        match output with
        | some output => conversionPaths model output
        | none => [model]
    | none => []
  arguments.batch.toList ++ named

/-- The assets of a batch whose configuration stands at a path. -/
def batchInputs (path : Path) (config : BatchConfig) : List Path :=
  config.assets.map fun asset => (path.parent?.getD ⟨""⟩).join asset.asset

/-- The paths where a batch writes. -/
def batchTargets (path : Path) (config : BatchConfig) : List Path :=
  let base := path.parent?.getD ⟨""⟩
  config.assets.flatMap fun asset =>
    let output (types : Bool) :=
      (base.join config.sourceDirectory).join ⟨asset.className ++ "." ++ Options.extension types⟩
    let copy := (base.join config.publicDirectory).join ⟨asset.asset.fileName?.getD ""⟩
    copy :: conversionPaths copy (output true) ++ conversionPaths copy (output false)

/-- The files that hold the buffers of the asset at a path. -/
def bufferPaths (path : Path) (bytes : ByteArray) : List Path :=
  match Gltf.Asset.ofBytes bytes with
  | .error _ => []
  | .ok asset =>
      asset.document.buffers.toList.filterMap fun buffer =>
        buffer.uri.bind (Gltf.fileAt? (Loading.directoryOf path))

/-- The places that a path passes, as far as its own steps tell, from the root on. -/
def passedPlaces (home : Place) (path : Path) : List Place :=
  let start (anchor : Files.Anchor) : Place := if anchor = .root then [] else home
  let go (passed : Place × List Place) (piece : String) : Place × List Place :=
    let next :=
      if Path.isIdle piece then passed.1
      else if piece = ".." then passed.1.dropLast
      else passed.1 ++ [piece]
    (next, passed.2 ++ [next])
  (path.split.2.foldl go (start path.split.1, [])).2

/-- The entries of one tree that another tree does not have in the same way. -/
def changedEntries (before after : FileTree) : List (Place × Entry) :=
  after.entries.filter fun entry =>
    match entry.2, before.at? entry.1 with
    | .directory, some .directory => false
    | .file bytes, some (.file earlier) => bytes.data != earlier.data
    | _, _ => true

/-- The places of one tree where another tree has nothing. -/
def vacatedPlaces (before after : FileTree) : List Place :=
  (before.entries.map (·.1)).filter fun place => (after.at? place).isNone

end SceneMarkup.CommandLine
