import SceneMarkup.Loading.Load
import SceneMarkup.Markup.NodeAttributes

namespace SceneMarkup.Job

open Files (Path OsError)

/-!
# Failures of a job
-/

/-- Why a job is not done. -/
inductive Failure
  /-- The file system refused an operation on a path. -/
  | file (path : Path) (error : OsError)
  /-- A file is no asset. -/
  | asset (path : Path) (fault : Gltf.Fault)
  /-- An asset has no scene. -/
  | noScene (path : Path)
  /-- A node of the scene cannot be written. -/
  | malformedNode (fault : Markup.Malformed)
  /-- A formatter did not give back a text. -/
  | formatter (command reason : String)
  /-- A configuration or its settings cannot be read. -/
  | settings
  deriving Repr, DecidableEq

namespace Failure

/-- A failure to load is a failure of the job. -/
def ofLoadError : Loading.LoadError → Failure
  | .file path error => .file path error
  | .asset path fault => .asset path fault
  | .noScene path => .noScene path

/-- What is wrong with a file that is no asset. -/
def faultText : Gltf.Fault → String
  | .unreadable => "failed to fill whole buffer"
  | .brokenContainer => "broken container"
  | .malformed => "malformed document"
  | .invalid => "invalid glTF:"
  | .missingBytes => "missing binary portion of binary glTF"
  | .brokenBytes => "broken base64"
  | .foreignAddress => "unsupported URI scheme"
  | .shortBuffer => "buffer with too few bytes"

/-- The wording of a failure. -/
def message : Failure → String
  | .file path error => "I/O failure on [" ++ path.text ++ "]. " ++ error.message
  | .asset path fault => "Invalid glTF [" ++ path.text ++ "]. " ++ faultText fault
  | .noScene path => "Model contains no scenes. [" ++ path.text ++ "]"
  | .malformedNode fault => fault.message
  | .formatter command reason => "Formatter [" ++ command ++ "] failed. " ++ reason
  | .settings => "invalid settings"

end Failure

end SceneMarkup.Job
