namespace SceneMarkup.Text

/-!
# Names

Generated expressions name properties of the loaded tables.  A name that is an
identifier is written bare; any other name becomes a single-quoted literal in
which the backslash and the apostrophe carry a backslash.

A name that is already taken gets a numbered spelling.  The search is over as
many spellings as there are taken names plus one, so it always ends, and with
pairwise different spellings one of them is free.
-/

/-- The character that delimits a literal. -/
def apostrophe : Char := '\x27'

/-- The character that escapes a delimiter. -/
def backslash : Char := '\\'

/-- Words that cannot stand as an identifier, in alphabetic order. -/
def reservedWords : List String :=
  ["abstract", "arguments", "await", "boolean", "break", "byte", "case", "catch", "char", "class",
    "const", "continue", "debugger", "default", "delete", "do", "double", "else", "enum", "eval",
    "export", "extends", "false", "final", "finally", "float", "for", "function", "goto", "if",
    "implements", "import", "in", "instanceof", "int", "interface", "let", "long", "native", "new",
    "null", "package", "private", "protected", "public", "return", "short", "static", "super",
    "switch", "synchronized", "this", "throw", "throws", "transient", "true", "try", "typeof",
    "undefined", "var", "void", "volatile", "while", "with", "yield"]

/-- An identifier starts with an ASCII letter, `_` or `$`. -/
def startsIdentifier (character : Char) : Bool :=
  character.isAlpha || character == '_' || character == '$'

/-- An identifier goes on with ASCII letters, ASCII digits, `_` or `$`. -/
def continuesIdentifier (character : Char) : Bool :=
  character.isAlphanum || character == '_' || character == '$'

/-- A name is an identifier when its characters allow it and it is not reserved. -/
def isIdentifier (name : String) : Bool :=
  match name.toList with
  | [] => false
  | first :: rest =>
      startsIdentifier first && rest.all continuesIdentifier && !reservedWords.contains name

/-- The characters that stand for one character inside a literal. -/
def escapedChar (character : Char) : List Char :=
  if character = backslash ∨ character = apostrophe then [backslash, character] else [character]

/-- The text between the delimiters of a literal. -/
def escaped (text : String) : String :=
  String.ofList (text.toList.flatMap escapedChar)

/-- A single-quoted literal. -/
def quoted (text : String) : String :=
  apostrophe.toString ++ escaped text ++ apostrophe.toString

/-- A name as a property key: bare when it is an identifier, else a literal in brackets. -/
def propertyKey (name : String) : String :=
  if isIdentifier name then name else "[" ++ quoted name ++ "]"

/-- The access to the property `name`: after a dot, or a literal in brackets. -/
def memberAccess (name : String) : String :=
  if isIdentifier name then "." ++ name else "[" ++ quoted name ++ "]"

/-- The first of `spelling 0`, `spelling 1`, ... that is not taken. -/
def firstFree (taken : List String) (spelling : Nat → String) : String :=
  match (List.range (taken.length + 1)).find? fun attempt => !taken.contains (spelling attempt) with
  | some attempt => spelling attempt
  | none => spelling 0

/-- Attempt `0` is the base itself; attempt `k` appends the separator and `k`. -/
def numbered (separator : String) (base : String) (attempt : Nat) : String :=
  if attempt = 0 then base else base ++ separator ++ toString attempt

end SceneMarkup.Text
