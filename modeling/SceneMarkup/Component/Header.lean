import SceneMarkup.Json.Writer
import SceneMarkup.Options.Basic

namespace SceneMarkup.Component

/-!
# The leading comment

The comment names the tool, then carries the author's header, the size report
and the notes of the asset.  A terminator inside any of these is split by a
blank, so the comment ends only where it should.
-/

/-- The tool and its version. -/
def version : String := "gltfjsx 0.4.0"

/-- Split every comment terminator by a blank, reading from the left. -/
def splitTerminators : List Char → List Char
  | '*' :: '/' :: rest => '*' :: ' ' :: '/' :: splitTerminators rest
  | character :: rest => character :: splitTerminators rest
  | [] => []

/-- The text of a note: a string bare, anything else as JSON. -/
def noteText : Json.Value → String
  | .text text => text
  | value => value.compact

/-- The lines of the comment. -/
def headerLines (options : Options) (extras : Option Json.Members) : List String :=
  ["Auto-generated by: " ++ version]
    ++ options.header.toList
    ++ (options.size.toList.map fun size => "Files: " ++ size)
    ++ ((extras.getD []).map fun note => note.1 ++ ": " ++ noteText note.2)

/-- The comment with its delimiters on lines of their own. -/
def headerComment (options : Options) (extras : Option Json.Members) : String :=
  let text := "\n".intercalate (headerLines options extras)
  "/*\n" ++ String.ofList (splitTerminators text.toList) ++ "\n*/\n"

end SceneMarkup.Component
