import SceneMarkup.CommandLine.Footprint
import SceneMarkup.Filters.Standard

/-!
# The program

Looks up the paths that the command line is about, does the work on a tree of
them, and writes back what the work changed.
-/

namespace SceneMarkup.Program

open Files (Entry FileTree Path Place)
open CommandLine (Arguments)

/-- A place as a text for the system. -/
def placeText (place : Place) : String :=
  "/" ++ String.intercalate "/" place

/-- Look up one place. -/
def lookUp (tree : FileTree) (place : Place) : IO FileTree := do
  if (tree.at? place).isSome then return tree
  let here ← IO.currentDir
  let there := here / placeText place
  if ← there.isDir then return tree.put place .directory
  if ← there.pathExists then return tree.put place (.file (← IO.FS.readBinFile there))
  return tree

/-- Look up everything that paths pass. -/
def lookUpPaths (tree : FileTree) (paths : List Path) : IO FileTree :=
  (paths.flatMap (CommandLine.passedPlaces tree.home)).foldlM lookUp tree

/-- Look up the files that hold the buffers of assets. -/
def lookUpBuffers (tree : FileTree) (assets : List Path) : IO FileTree :=
  lookUpPaths tree (assets.flatMap fun path =>
    match tree.read path with
    | .ok bytes => CommandLine.bufferPaths path bytes
    | .error _ => [])

/-- Look up what a batch is about. -/
def lookUpBatch (tree : FileTree) (path : Path) : IO FileTree := do
  match (Job.readText path tree).toOption.bind Job.BatchConfig.ofText? with
  | none => return tree
  | some config =>
      let inputs := CommandLine.batchInputs path config
      lookUpBuffers
        (← lookUpPaths tree (inputs ++ CommandLine.batchTargets path config)) inputs

/-- Look up what a command line is about. -/
def lookUpArguments (words : List String) : IO FileTree := do
  let here ← IO.currentDir
  let home := (here.toString.splitOn "/").filter (· != "")
  let empty : FileTree := ⟨[], home⟩
  match Arguments.ofWords words with
  | .error _ => return empty
  | .ok arguments =>
      let tree ← lookUpPaths empty (⟨here.toString⟩ :: arguments.paths)
      match arguments.batch with
      | some path => lookUpBatch tree path
      | none => lookUpBuffers tree arguments.model.toList

/-- Write back one entry. -/
def writeBack (entry : Place × Entry) : IO Unit :=
  match entry.2 with
  | .directory => IO.FS.createDirAll (placeText entry.1)
  | .file bytes => IO.FS.writeBinFile (placeText entry.1) bytes

/-- Whether a record is shown when nobody asked for details. -/
def isShown (record : Report) : Bool :=
  record.severity != .debug

end SceneMarkup.Program

open SceneMarkup in
/-- Run the program on the words of its command line. -/
def main (words : List String) : IO UInt32 := do
  let before ← Program.lookUpArguments words
  let (ending, world) := CommandLine.run Filters.standard words before
  for record in world.reports.filter Program.isShown do
    IO.eprintln record.text
  let (directories, files) :=
    (CommandLine.changedEntries before world.tree).partition fun entry => entry.2.isDirectory
  for entry in directories ++ files do
    Program.writeBack entry
  for place in CommandLine.vacatedPlaces before world.tree do
    IO.FS.removeFile (Program.placeText place)
  IO.print ending.output
  IO.eprint ending.complaint
  return UInt32.ofNat ending.exitCode
