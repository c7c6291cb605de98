namespace SceneMarkup

/-!
# Reports

What a run tells its user while it works, as plain records in order.
-/

/-- How much a record matters. -/
inductive Severity
  | debug
  | info
  | warning
  | error
  deriving Repr, DecidableEq

/-- One record of a run. -/
structure Report where
  severity : Severity
  text : String
  deriving Repr, DecidableEq

namespace Report

/-- Every record opens with the name of the tool. -/
def ofText (severity : Severity) (text : String) : Report :=
  ⟨severity, "gltfjsx: " ++ text⟩

/-- A record of ordinary progress. -/
def info (text : String) : Report :=
  ofText .info text

/-- A record of a decision. -/
def debug (text : String) : Report :=
  ofText .debug text

/-- A record of input that was passed over. -/
def warning (text : String) : Report :=
  ofText .warning text

/-- A record of a failure. -/
def failure (text : String) : Report :=
  ofText .error text

end Report

end SceneMarkup
