import SceneMarkup.CommandLine.Reading
import SceneMarkup.Job.Batch

namespace SceneMarkup.CommandLine

open Files (FileTree Path)
open Filters (FilterTable)
open Job (Failure Work World)

/-!
# A run of the program

What the program does for a command line, as work on a file tree: what it
writes, what it complains about, and the code with which it exits.
-/

/-- How a run ends. -/
structure Ending where
  exitCode : Nat
  output : String
  complaint : String
  deriving Repr, DecidableEq

namespace Ending

/-- The end of a run that did what it was asked to do. -/
def success : Ending :=
  ⟨0, "", ""⟩

/-- The end of a run that could not do it. -/
def failure (message : String) : Ending :=
  ⟨1, "", "Error: " ++ message ++ "\n"⟩

/-- The end of a run that could not do it, with the cause. -/
def causedBy (message : String) (cause : Failure) : Ending :=
  ⟨1, "", "Error: " ++ message ++ "\n\nCaused by:\n    " ++ cause.message ++ "\n"⟩

end Ending

/-- The arguments, one a line. -/
def usage : String :=
  String.join (List.map (· ++ "\n")
    ["Turn glTF assets into declarative react-three-fiber components",
      "",
      "Usage: gltfjsx [OPTIONS] [MODEL] [OUTPUT]",
      "",
      "  -t, --types                    Add TypeScript definitions",
      "  -k, --keepnames                Keep original names",
      "  -K, --keepgroups               Keep (empty) groups, disable pruning",
      "  -m, --meta                     Include metadata (as userData)",
      "  -s, --shadows                  Let meshes cast and receive shadows",
      "  -p, --precision <PRECISION>    Number of fractional digits [default: 2]",
      "  -d, --draco <DRACO>            Draco binary path",
      "  -r, --root <ROOT>              Sets directory from which .gltf file is served",
      "  -i, --instance                 Instance re-occuring geometry",
      "  -I, --instanceall              Instance every geometry (for cheaper re-use)",
      "  -T, --transform                Deduplicate geometries and materials before converting",
      "  -a, --aggressive               Remove redundant transforms and groups more aggressively",
      "  -D, --debug                    Debug output",
      "      --header <HEADER>          Add a header comment to the generated file",
      "      --formatter <FORMATTER>    Pipe the generated file through this command",
      "      --batch <BATCH>            Convert every asset listed in a batch config instead",
      "  -h, --help                     Print help",
      "  -V, --version                  Print version"])

/-- What is wrong with a command line. -/
def Refusal.message : Refusal → String
  | .help => usage
  | .version => Component.version ++ "\n"
  | .unknownArgument argument => "error: unexpected argument '" ++ argument ++ "' found\n"
  | .unexpectedValue _ => "error: unexpected value for a switch\n"
  | .missingValue _ => "error: a value is required\n"
  | .malformedNumber value => "error: invalid value '" ++ value ++ "'\n"
  | .repeated _ => "error: an argument cannot be used multiple times\n"
  | .batchWithModel => "error: a batch cannot be used with a model\n"
  | .nothingToConvert => "error: a model or a batch is required\n"

/-- The end of a run whose command line is not followed. -/
def Refusal.ending (refusal : Refusal) : Ending :=
  if refusal.isRequest then ⟨refusal.exitCode, refusal.message, ""⟩
  else ⟨refusal.exitCode, "", refusal.message⟩

/-- The end of a run that did some work. -/
def endingOf (message : String) : Except Failure α → Ending
  | .ok _ => .success
  | .error failure => .causedBy message failure

/-- Convert a batch. -/
def runBatch (filters : FilterTable) (config : Path) (tree : FileTree) : Ending × World :=
  let (result, world) := (Job.runBatch filters config).runOn tree
  (endingOf ("Batch [" ++ config.text ++ "] failed") result, world)

/-- Convert a model to the output, or to a file named after the model. -/
def runModel (filters : FilterTable) (arguments : Arguments) (model : Path) (tree : FileTree) :
    Ending × World :=
  if !tree.contains model then
    (.failure ("Model not found: " ++ model.text), { tree := tree })
  else
    let named := arguments.output.orElse fun _ =>
      Arguments.defaultOutput? model arguments.options.types
    match named with
    | none => (.failure (Arguments.unnamedMessage model), { tree := tree })
    | some output =>
        let (result, world) := (Job.convert filters model output arguments.options).runOn tree
        (endingOf ("Failed to convert [" ++ model.text ++ "]") result, world)

/-- Do what the words of a command line ask for. -/
def run (filters : FilterTable) (words : List String) (tree : FileTree) : Ending × World :=
  match Arguments.ofWords words with
  | .error refusal => (refusal.ending, { tree := tree })
  | .ok arguments =>
      match arguments.batch, arguments.model with
      | some config, _ => runBatch filters config tree
      | none, some model => runModel filters arguments model tree
      | none, none => (.failure "No model given", { tree := tree })

end SceneMarkup.CommandLine
