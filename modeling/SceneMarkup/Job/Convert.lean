import SceneMarkup.Component.Conversion
import SceneMarkup.Job.ByteSize
import SceneMarkup.Job.Formatting
import SceneMarkup.Scene.Merging

namespace SceneMarkup.Job

open Files (FileTree OsError Path)
open Filters (FilterTable)
open Scene (SceneGraph MergeReport)

/-!
# Converting one asset

An asset is loaded, converted and formatted; only then is anything written, to a
temporary file beside the output that is then moved into its place.
-/

/-- How many bytes stand at a path; a directory counts as none. -/
def byteCount (path : Path) (tree : FileTree) : Except OsError Nat :=
  (tree.lookup path).map fun entry => entry.bytes?.elim 0 ByteArray.size

/-- What the leading comment says about the size of an asset, and about what was merged. -/
def sizeLine (name : String) (bytes : Nat) (merged : Option MergeReport) : String :=
  let line := name ++ " [" ++ sizeText bytes ++ "]"
  match merged with
  | none => line
  | some report =>
      line ++ ", deduplicated " ++ toString report.geometries ++ " geometries and "
        ++ toString report.materials ++ " materials"

/-- The path under which an asset is served: as seen from the root of what is served. -/
def servedPath (input : Path) (options : Options) : String :=
  let root :=
    match options.root with
    | some root => ⟨root⟩
    | none => input.parent?.getD ⟨""⟩
  input.relativeTo root

/-- Load the scene of an asset. -/
def loadScene (input : Path) (fingerprint : Bool) : Work SceneGraph := do
  let (graph, reports) ←
    Work.orFail Failure.ofLoadError (Loading.load (← get).tree input fingerprint)
  Work.reportAll reports
  return graph

/-- Merge what is equal in a scene if that is asked for, and tell what was merged. -/
def mergeScene (graph : SceneGraph) (deduplicate : Bool) :
    Work (SceneGraph × Option MergeReport) := do
  if deduplicate then
    Work.report graph.mergeReport.record
    return (graph.merge, some graph.mergeReport)
  else return (graph, none)

/-- The text of the component of a loaded scene. -/
def writeComponent (fileName : String) (graph : SceneGraph) (options : Options) : Work String := do
  let conversion := Component.convert fileName graph options
  Work.reportAll conversion.reports
  Work.orFail .malformedNode conversion.result

/-- The text of the component of an asset, formatted if the settings say how. -/
def componentText (filters : FilterTable) (input : Path) (options : Options) : Work String := do
  let bytes ← Work.ask input (byteCount input)
  let loaded ← loadScene input options.deduplicate
  let (graph, merged) ← mergeScene loaded options.deduplicate
  let line := sizeLine (input.fileName?.getD "") bytes merged
  let text ← writeComponent (servedPath input options) graph { options with size := some line }
  match options.formatter with
  | some command => formatted filters command text
  | none => return text

/-- The temporary file beside an output. -/
def temporaryPath (output : Path) : Path :=
  output.withFileName ("." ++ output.fileName?.getD "" ++ ".tmp")

/-- Write a text to the temporary file and move it to the output; leave no temporary file behind. -/
def deliver (output : Path) (text : String) : Work Unit := do
  let temporary := temporaryPath output
  let tidy (failure : Failure) : Work Unit := do
    Work.attempt fun tree => tree.remove temporary
    throw failure
  tryCatch (Work.write temporary text.toUTF8) tidy
  tryCatch (Work.move temporary output) tidy

/-- Convert the asset at `input` into a component at `output`. -/
def convert (filters : FilterTable) (input output : Path) (options : Options) : Work Unit := do
  let text ← componentText filters input options
  deliver output text
  Work.report (.info ("wrote [" ++ output.text ++ "]."))

end SceneMarkup.Job
