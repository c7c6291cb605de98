import SceneMarkup.Filters.Filter
import SceneMarkup.Job.Work
import SceneMarkup.Text.Blank
import SceneMarkup.Text.Decoding

namespace SceneMarkup.Job

open Files (FileTree OsError)
open Filters (Filter FilterTable FilterResult Octets)

/-!
# Formatting

A text is piped through the filter that a command names; the words of the
command are separated by blanks and nothing in them is quoted.
-/

/-- The directories in which a filter stands under its name. -/
def filterDirectories : List String :=
  ["/bin/", "/usr/bin/"]

/-- What is said about words that hold the character that ends words. -/
def brokenWord : String :=
  "nul byte found in provided data"

/-- Why a path does not lead to a filter: files and directories are none. -/
def pathError (tree : FileTree) (path : String) : OsError :=
  match tree.lookup ⟨path⟩ with
  | .ok _ => .denied
  | .error error => error

/-- The filter that a word names: by its name, or by the path to it. -/
def filterAt (filters : FilterTable) (tree : FileTree) (word : String) : Except OsError Filter :=
  if word.toList.contains '/' then
    let names := filterDirectories.filterMap fun directory =>
      if directory.toList.isPrefixOf word.toList then
        some (String.ofList (word.toList.drop directory.length))
      else none
    match names.findSome? filters with
    | some filter => .ok filter
    | none => .error (pathError tree word)
  else
    match filters word with
    | some filter => .ok filter
    | none => .error (if FileTree.nameLimit < word.utf8ByteSize then .nameTooLong else .notFound)

/-- The report of a filter that failed. -/
def formatterReport (command : String) (result : FilterResult) : Report :=
  .failure ("formatter [" ++ command ++ "] failed. " ++ Text.trimmed result.complaint)

/-- Write the files that a filter writes. -/
def writeChanges (changes : List (String × Octets)) : Work Unit :=
  changes.forM fun change =>
    Work.attempt fun tree => tree.write ⟨change.1⟩ (Octets.toBytes change.2)

/-- Pipe a text through a command. -/
def formatted (filters : FilterTable) (command text : String) : Work String := do
  match Text.words command with
  | [] => throw (.formatter command "empty command")
  | name :: words =>
      if command.toList.contains '\x00' then throw (.formatter command brokenWord)
      let tree := (← get).tree
      let filter ← Work.orFail (fun error => .formatter command error.message)
        (filterAt filters tree name)
      let result := filter tree words (Octets.ofText text)
      writeChanges result.changes
      if result.exitCode ≠ 0 then
        Work.report (formatterReport command result)
        throw (.formatter command ("exit status: " ++ toString result.exitCode))
      Work.orFail (fun garbling => .formatter command garbling.message)
        (Text.textOf (Octets.toBytes result.output))

end SceneMarkup.Job
