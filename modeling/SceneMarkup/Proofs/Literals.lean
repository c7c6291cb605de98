import SceneMarkup.Proofs.EntryExpressions

namespace SceneMarkup.Markup

open Scene

/-!
# Literals, keys and accesses read back

A literal ends at its delimiter, a backslash takes the character behind it, and
no line ends inside a literal.  Whatever is written for a text is read as that
text, unless the text breaks a line: its line breaks are written as they are, and
then nothing can be read at all.
-/

section Reading

/-- The characters that a literal cannot hold as they are. -/
def IsLineBreak (character : Char) : Prop :=
  character = '\n' ∨ character = '\r'

instance (character : Char) : Decidable (IsLineBreak character) :=
  inferInstanceAs (Decidable (_ ∨ _))

/-- A text that takes more than one line. -/
def BreaksLine (text : List Char) : Prop :=
  ∃ character ∈ text, IsLineBreak character

instance (text : List Char) : Decidable (BreaksLine text) :=
  inferInstanceAs (Decidable (∃ character ∈ text, IsLineBreak character))

/--
The character that a backslash and the character behind it stand for.  Escapes by number and
literals that go on in the next line are not read.
-/
def escapeValue? (character : Char) : Option Char :=
  match character with
  | 'b' => some '\x08'
  | 't' => some '\t'
  | 'n' => some '\n'
  | 'v' => some '\x0b'
  | 'f' => some '\x0c'
  | 'r' => some '\r'
  | '\n' | '\r' | '\u2028' | '\u2029' | 'x' | 'u' => none
  | _ => if character.isDigit then none else some character

/-- The letters of a literal from here on, maybe after a backslash, and what stands behind it. -/
def literalFrom? : Bool → List Char → Option (List Char × List Char)
  | _, [] => none
  | true, character :: rest =>
      (escapeValue? character).bind fun value =>
        (literalFrom? false rest).map fun read => (value :: read.1, read.2)
  | false, character :: rest =>
      if character = Text.apostrophe then some ([], rest)
      else if IsLineBreak character then none
      else if character = Text.backslash then literalFrom? true rest
      else (literalFrom? false rest).map fun read => (character :: read.1, read.2)

/-- The text of a literal with nothing but `after` behind it. -/
def literalBefore? (after : List Char) : List Char → Option String
  | '\x27' :: rest =>
      (literalFrom? false rest).bind fun read =>
        if read.2 = after then some (String.ofList read.1) else none
  | _ => none

/-- The letters of an identifier; a reserved word may follow a dot and may be a key. -/
def isIdentifierName : List Char → Bool
  | [] => false
  | first :: rest => Text.startsIdentifier first && rest.all Text.continuesIdentifier

/-- The text that a literal stands for. -/
def readLiteral? (literal : String) : Option String :=
  literalBefore? [] literal.toList

/-- The name that a property key stands for: an identifier, or a literal in brackets. -/
def readKey? (key : String) : Option String :=
  match key.toList with
  | '[' :: rest => literalBefore? [']'] rest
  | letters => if isIdentifierName letters then some key else none

/-- The name that is accessed: an identifier after a dot, or a literal in brackets. -/
def readAccess? (access : String) : Option String :=
  match access.toList with
  | '.' :: letters => if isIdentifierName letters then some (String.ofList letters) else none
  | '[' :: rest => literalBefore? [']'] rest
  | _ => none

end Reading

section Literals

/-- What is written for one character is read as that character. -/
theorem literalFrom?_escapedChar
    (character : Char)
    (rest : List Char) :
    literalFrom? false (Text.escapedChar character ++ rest) =
      if IsLineBreak character then none
      else (literalFrom? false rest).map fun read => (character :: read.1, read.2) := by
  unfold Text.escapedChar
  split
  next special =>
    rcases special with rfl | rfl <;> rfl
  next plain =>
    obtain ⟨unescaped, inside⟩ := not_or.mp plain
    rw [List.singleton_append, literalFrom?, if_neg inside, if_neg unescaped]

/-- An escaped text is read up to its delimiter, unless it breaks a line. -/
theorem literalFrom?_escaped
    (text rest : List Char) :
    literalFrom? false (text.flatMap Text.escapedChar ++ Text.apostrophe :: rest) =
      if BreaksLine text then none else some (text, rest) := by
  induction text with
  | nil =>
      have whole : ¬ BreaksLine [] := by
        rintro ⟨_, member, _⟩
        cases member
      rw [if_neg whole]
      rfl
  | cons character text ih =>
      rw [List.flatMap_cons, List.append_assoc, literalFrom?_escapedChar, ih]
      by_cases here : IsLineBreak character
      · have breaks : BreaksLine (character :: text) := ⟨character, List.mem_cons_self, here⟩
        rw [if_pos here, if_pos breaks]
      · have later : BreaksLine (character :: text) ↔ BreaksLine text := by
          simp only [BreaksLine, List.exists_mem_cons_iff, here, false_or]
        rw [if_neg here, if_congr later rfl rfl]
        split <;> rfl

/-- A literal before `after` is read as its text, unless the text breaks a line. -/
theorem literalBefore?_quoted
    (after : List Char)
    (text : String) :
    literalBefore? after ((Text.quoted text).toList ++ after) =
      if BreaksLine text.toList then none else some text := by
  have spelled : (Text.quoted text).toList ++ after =
      Text.apostrophe :: (text.toList.flatMap Text.escapedChar ++ Text.apostrophe :: after) := by
    simp [Text.quoted, Text.escaped]
  rw [spelled]
  show (literalFrom? false _).bind _ = _
  rw [literalFrom?_escaped]
  split
  next => rfl
  next => simp

end Literals

section Identifiers

/-- What counts as an identifier is one that is read as a name. -/
theorem isIdentifierName_of_isIdentifier
    {name : String}
    (identifier : Text.isIdentifier name = true) :
    isIdentifierName name.toList = true := by
  unfold Text.isIdentifier at identifier
  cases spelled : name.toList with
  | nil =>
      rw [spelled] at identifier
      exact identifier
  | cons first rest =>
      rw [spelled] at identifier
      exact (Bool.and_eq_true_iff.mp identifier).1

/-- An identifier stays on its line. -/
theorem not_breaksLine_of_isIdentifier
    {name : String}
    (identifier : Text.isIdentifier name = true) :
    ¬ BreaksLine name.toList := by
  rintro ⟨character, member, breaks⟩
  have continues := (isWord_of_isIdentifier identifier).continues character member
  rcases breaks with rfl | rfl <;> exact absurd continues (by decide)

end Identifiers

section Writers

theorem quoted_injective :
    Function.Injective Text.quoted := by
  intro first second same
  have literal : ∀ text, tokensFrom (.word []) (Text.quoted text).toList =
      [.literal text.toList] := by
    intro text
    have closes := tokensFrom_escaped text.toList [] []
    simp only [Text.quoted, Text.escaped, String.toList_append, String.toList_ofList]
    exact closes
  have both := congrArg (fun text : String => tokensFrom (.word []) text.toList) same
  simp only [literal] at both
  exact String.toList_inj.mp (Token.literal.inj (List.singleton_inj.mp both))

theorem memberAccess_injective :
    Function.Injective Text.memberAccess :=
  fun _ _ same => nodeExpression_injective (congrArg ("nodes" ++ ·) same)

/-- A quoted text is read back exactly if no line breaks in it. -/
theorem readLiteral?_quoted
    (text : String) :
    readLiteral? (Text.quoted text) = if BreaksLine text.toList then none else some text := by
  have reads := literalBefore?_quoted [] text
  rwa [List.append_nil] at reads

/-- A key is read back exactly if no line breaks in the name. -/
theorem readKey?_propertyKey
    (name : String) :
    readKey? (Text.propertyKey name) = if BreaksLine name.toList then none else some name := by
  unfold Text.propertyKey
  split
  next identifier =>
    have named := isIdentifierName_of_isIdentifier identifier
    have whole := not_breaksLine_of_isIdentifier identifier
    unfold readKey?
    split
    next bracketed =>
      rw [bracketed] at named
      cases named
    next => rw [if_pos named, if_neg whole]
  next =>
    have bracketed : ("[" ++ Text.quoted name ++ "]").toList =
        '[' :: ((Text.quoted name).toList ++ [']']) := by
      simp
    rw [readKey?, bracketed]
    exact literalBefore?_quoted [']'] name

/-- An access is read back exactly if no line breaks in the name. -/
theorem readAccess?_memberAccess
    (name : String) :
    readAccess? (Text.memberAccess name) =
      if BreaksLine name.toList then none else some name := by
  unfold Text.memberAccess
  split
  next identifier =>
    have named := isIdentifierName_of_isIdentifier identifier
    have dotted : ("." ++ name).toList = '.' :: name.toList := by
      simp
    rw [readAccess?, dotted]
    simp only [named, if_true, String.ofList_toList,
      if_neg (not_breaksLine_of_isIdentifier identifier)]
  next =>
    have bracketed : ("[" ++ Text.quoted name ++ "]").toList =
        '[' :: ((Text.quoted name).toList ++ [']']) := by
      simp
    rw [readAccess?, bracketed]
    exact literalBefore?_quoted [']'] name

end Writers

section Materials

/-- The material attribute tells the name of the material, and has none when there is no name. -/
theorem accesses_materialAttribute
    (labels : Labels)
    (id : NodeId) :
    ∃ content,
      (NodeContext.ofLabels labels id).materialAttribute = .expression .material content ∧
        accesses "materials" content =
          if (NodeContext.ofLabels labels id).materialName = "" then []
          else [(NodeContext.ofLabels labels id).materialName] := by
  refine ⟨_, rfl, ?_⟩
  by_cases unnamed : (NodeContext.ofLabels labels id).materialName = ""
  · have empty : (NodeContext.ofLabels labels id).materialName.isEmpty = true :=
      String.isEmpty_iff.mpr unnamed
    rw [if_pos empty, if_pos unnamed]
    exact accesses_property (labels.name id) (by decide)
  · have filled : ¬ (NodeContext.ofLabels labels id).materialName.isEmpty = true :=
      fun empty => unnamed (String.isEmpty_iff.mp empty)
    rw [if_neg filled, if_neg unnamed]
    exact (accesses_memberAccess isWord_materials _).trans (if_pos rfl)

/-- Different material names are written differently. -/
theorem materialName_of_materialAttribute
    {first second : Labels}
    {id other : NodeId}
    (same : (NodeContext.ofLabels first id).materialAttribute =
      (NodeContext.ofLabels second other).materialAttribute) :
    (NodeContext.ofLabels first id).materialName =
      (NodeContext.ofLabels second other).materialName := by
  obtain ⟨content, written, taken⟩ := accesses_materialAttribute first id
  obtain ⟨content', written', taken'⟩ := accesses_materialAttribute second other
  obtain rfl : content = content' := by
    have equal := written.symm.trans (same.trans written')
    injection equal with _ value
    injection value
  have both := taken.symm.trans taken'
  split_ifs at both with unnamed unnamed' <;> simp_all

end Materials

/--
Literals, keys and accesses are read back as the text that they are written for exactly if the
text breaks no line.  In any case two texts, and two names of nodes or of materials, are never
written alike.
-/
theorem written_names_read_back
    (text other : String)
    (first second : Labels)
    (id otherId : NodeId) :
    (readLiteral? (Text.quoted text) = if BreaksLine text.toList then none else some text) ∧
      (readKey? (Text.propertyKey text) = if BreaksLine text.toList then none else some text) ∧
      (readAccess? (Text.memberAccess text) =
        if BreaksLine text.toList then none else some text) ∧
      (Text.quoted text = Text.quoted other ↔ text = other) ∧
      (Text.propertyKey text = Text.propertyKey other ↔ text = other) ∧
      (Text.memberAccess text = Text.memberAccess other ↔ text = other) ∧
      (nodeExpression text = nodeExpression other ↔ text = other) ∧
      ((NodeContext.ofLabels first id).materialAttribute =
          (NodeContext.ofLabels second otherId).materialAttribute →
        (NodeContext.ofLabels first id).materialName =
          (NodeContext.ofLabels second otherId).materialName) :=
  ⟨readLiteral?_quoted text, readKey?_propertyKey text, readAccess?_memberAccess text,
    quoted_injective.eq_iff, propertyKey_injective.eq_iff, memberAccess_injective.eq_iff,
    nodeExpression_injective.eq_iff, materialName_of_materialAttribute⟩

/-- A name with a line feed is written with its line feed, and no reader takes it back. -/
theorem broken_line_is_not_read :
    Text.memberAccess "a\nb" = "['a\nb']" ∧
      readAccess? (Text.memberAccess "a\nb") = none ∧
      readKey? (Text.propertyKey "a\nb") = none ∧
      readLiteral? (Text.quoted "a\nb") = none := by
  decide +kernel

end SceneMarkup.Markup
