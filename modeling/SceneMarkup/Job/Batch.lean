import SceneMarkup.Job.BatchConfig
import SceneMarkup.Job.Convert
import SceneMarkup.Options.Fields

namespace SceneMarkup.Job

open Files (FileTree OsError Path)
open Filters (FilterTable)
open Json (Members)

/-!
# Converting a batch

The assets of a batch are converted in order, and each is copied to where it is
served from; the first failure ends the batch.
-/

/-- The text of a file. -/
def readText (path : Path) (tree : FileTree) : Except OsError String := do
  match String.fromUTF8? (← tree.read path) with
  | some text => .ok text
  | none => .error .notText

/-- Read the configuration at a path. -/
def loadConfig (path : Path) : Work BatchConfig := do
  let text ← Work.ask path (readText path)
  match BatchConfig.ofText? text with
  | some config => return config
  | none => throw .settings

/-- Lay settings of a configuration over others. -/
def overlaid (options : Options) (overlay : Members) : Work Options :=
  match options.merged? overlay with
  | some merged => pure merged
  | none => throw .settings

/-- Whether a file stands at `target` whose bytes are those at `source`. -/
def isUpToDate (source target : Path) : Work Bool := do
  if (← get).tree.contains target then
    let standing ← Work.ask target fun tree => tree.read target
    let coming ← Work.ask source fun tree => tree.read source
    return standing.data == coming.data
  else return false

/-- Copy a file. -/
def copyFile (source target : Path) : Work Unit := do
  let bytes ← Work.ask target fun tree => tree.read source
  Work.write target bytes

/-- Where a file goes that is copied into a directory. -/
def copyTarget? (source directory : Path) : Option Path :=
  source.fileName?.map fun name => directory.join ⟨name⟩

/-- Copy a file into a directory, unless the same bytes are already there. -/
def copyIfChanged (source directory : Path) : Work Unit := do
  match copyTarget? source directory with
  | none => throw (.file source .unnamed)
  | some target =>
      if ← isUpToDate source target then
        Work.report (.info ("[" ++ target.text ++ "] is up to date, skipping copy."))
      else
        copyFile source target
        Work.report (.info ("copied [" ++ source.text ++ "] to [" ++ directory.text ++ "]."))

/-- Where a batch reads from and writes to, and the settings for all its assets. -/
structure BatchPlace where
  /-- The directory of the configuration, from which its paths start. -/
  base : Path
  sourceDirectory : Path
  publicDirectory : Path
  options : Options

namespace BatchPlace

/-- The place of a batch whose configuration stands at a path, with the settings for all assets. -/
def ofConfig (path : Path) (config : BatchConfig) (options : Options) : BatchPlace :=
  let base := path.parent?.getD ⟨""⟩
  ⟨base, base.join config.sourceDirectory, base.join config.publicDirectory, options⟩

/-- Where an asset stands. -/
def input (place : BatchPlace) (asset : BatchAsset) : Path :=
  place.base.join asset.asset

/-- Where the component of an asset goes. -/
def output (place : BatchPlace) (asset : BatchAsset) (options : Options) : Path :=
  place.sourceDirectory.join ⟨asset.className ++ "." ++ Options.extension options.types⟩

end BatchPlace

/-- Convert one asset of a batch. -/
def runAsset (filters : FilterTable) (place : BatchPlace) (asset : BatchAsset) : Work Unit := do
  let options ← overlaid place.options asset.options
  let input := place.input asset
  let output := place.output asset options
  Work.report (.info ("converting [" ++ input.text ++ "] to [" ++ output.text ++ "]."))
  Work.change place.sourceDirectory fun tree => tree.createDirectories place.sourceDirectory
  convert filters input output options
  Work.change place.publicDirectory fun tree => tree.createDirectories place.publicDirectory
  copyIfChanged input place.publicDirectory

/-- Convert assets in order up to the first failure, which is reported. -/
def runAssets (filters : FilterTable) (place : BatchPlace) : List BatchAsset → Work Unit
  | [] => pure ()
  | asset :: rest => do
      tryCatch (runAsset filters place asset) fun failure => do
        Work.report (.failure ("batch halted at [" ++ asset.asset.text ++ "]. " ++ failure.message))
        throw failure
      runAssets filters place rest

/-- Convert the batch whose configuration stands at a path; the result is the number of assets. -/
def runBatch (filters : FilterTable) (path : Path) : Work Nat := do
  let config ← loadConfig path
  let options ← overlaid {} config.options
  let count := config.assets.length
  Work.report (.info ("batch [" ++ path.text ++ "], " ++ toString count ++ " assets."))
  runAssets filters (.ofConfig path config options) config.assets
  Work.report (.info ("batch done, " ++ toString count ++ " assets converted."))
  return count

end SceneMarkup.Job
