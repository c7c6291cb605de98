import SceneMarkup.Files.FileTree
import SceneMarkup.Filters.Octets

namespace SceneMarkup.Filters

open Files (FileTree OsError)

/-!
# Filters

A filter is a program that reads a text and writes a text.  What it does depends
on its words, on the text given to it, and on the files that its words name.
-/

/-- What a filter leaves behind. -/
structure FilterResult where
  output : Octets
  /-- What it says about its failure. -/
  complaint : String
  exitCode : Nat
  /-- The files that it writes, by name. -/
  changes : List (String × Octets)
  deriving Repr, DecidableEq

/-- A filter, given its files, its words and its text. -/
abbrev Filter := FileTree → List String → Octets → FilterResult

/-- A filter that writes no files, whatever it is asked for. -/
def ReadsOnly (filter : Filter) : Prop :=
  ∀ tree words text, (filter tree words text).changes = []

/-- The filters that can be called, by name. -/
abbrev FilterTable := String → Option Filter

namespace FilterResult

/-- A run without a failure. -/
def success (output : Octets) : FilterResult :=
  ⟨output, "", 0, []⟩

/-- A run that wrote nothing and failed. -/
def failure (exitCode : Nat) (complaint : String) : FilterResult :=
  ⟨[], complaint, exitCode, []⟩

end FilterResult

/-- A text under the name that a word gives it. -/
structure Source where
  name : String
  content : Except OsError Octets

namespace Source

/-- Whether a name stands for the text given. -/
def isGiven (name : String) : Bool :=
  name == "-" || name == "/dev/stdin" || name == "/dev/fd/0"

/-- The octets of a file; nothing stands in the file that takes anything. -/
def fileOctets (tree : FileTree) (name : String) : Except OsError Octets :=
  if name = "/dev/null" then .ok [] else (tree.read ⟨name⟩).map Octets.ofBytes

/-- The texts that words name, where the text given is read but once. -/
def ofNames (tree : FileTree) (text : Octets) : List String → List Source
  | [] => []
  | name :: rest =>
      if isGiven name then ⟨name, .ok text⟩ :: ofNames tree [] rest
      else ⟨name, fileOctets tree name⟩ :: ofNames tree text rest

/-- The octets of a text, none if it cannot be read. -/
def octets (source : Source) : Octets :=
  match source.content with
  | .ok octets => octets
  | .error _ => []

/-- What is said about a text that cannot be read. -/
def complaint (program : String) (source : Source) : String :=
  match source.content with
  | .ok _ => ""
  | .error error => program ++ ": " ++ source.name ++ ": " ++ error.wording ++ "\n"

/-- Whether all texts can be read. -/
def allReadable (sources : List Source) : Bool :=
  sources.all fun source => source.content.isOk

end Source

end SceneMarkup.Filters
