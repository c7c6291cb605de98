namespace SceneMarkup.Files

/-!
# Refusals of the file system
-/

/-- Why the file system refuses an operation. -/
inductive OsError
  | notFound
  | deviceFault
  | denied
  | busy
  | exists
  | notDirectory
  | isDirectory
  | noSpace
  | nameTooLong
  /-- A name holds the character that ends names. -/
  | brokenName
  /-- A file that has to be a text is none. -/
  | notText
  /-- A path that has to end with a name does not. -/
  | unnamed
  deriving Repr, DecidableEq

namespace OsError

/-- The number of an error that the system itself reports. -/
def code? : OsError → Option Nat
  | .notFound => some 2
  | .deviceFault => some 5
  | .denied => some 13
  | .busy => some 16
  | .exists => some 17
  | .notDirectory => some 20
  | .isDirectory => some 21
  | .noSpace => some 28
  | .nameTooLong => some 36
  | .brokenName => none
  | .notText => none
  | .unnamed => none

/-- The wording of an error. -/
def wording : OsError → String
  | .notFound => "No such file or directory"
  | .deviceFault => "Input/output error"
  | .denied => "Permission denied"
  | .busy => "Device or resource busy"
  | .exists => "File exists"
  | .notDirectory => "Not a directory"
  | .isDirectory => "Is a directory"
  | .noSpace => "No space left on device"
  | .nameTooLong => "File name too long"
  | .brokenName => "file name contained an unexpected NUL byte"
  | .notText => "stream did not contain valid UTF-8"
  | .unnamed => "invalid input parameter"

/-- The wording, with the number if there is one. -/
def message (error : OsError) : String :=
  match error.code? with
  | some code => error.wording ++ " (os error " ++ toString code ++ ")"
  | none => error.wording

end OsError

end SceneMarkup.Files
