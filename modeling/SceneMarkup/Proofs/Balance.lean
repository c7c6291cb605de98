import SceneMarkup.Proofs.Constants

namespace SceneMarkup.Markup

/-!
# Balanced expressions

The expressions of attributes end where their closing brace stands: constant
texts close the braces and literals that they open, and a name that is no
identifier stands in a literal that escapes its delimiter.
-/

section Balance

/-- A character that neither opens nor closes anything in an expression. -/
def isPlain (character : Char) : Bool :=
  !(['"', Text.apostrophe, openBrace, closeBrace].contains character)

/-- A text without delimiters. -/
def Plain (text : List Char) : Prop :=
  ∀ character ∈ text, isPlain character = true

instance (text : List Char) : Decidable (Plain text) :=
  List.decidableBAll (fun character => isPlain character = true) text

/-- A text that stands in a literal and does not end it. -/
def Within (delimiter : Char) (text : List Char) : Prop :=
  ∀ braces,
    text.foldlM Mode.next? (.literal delimiter braces) = some (.literal delimiter braces)

/-- Two balanced texts are balanced together. -/
theorem balanced_append
    {first second : List Char}
    (begins : Balanced first)
    (ends : Balanced second) :
    Balanced (first ++ second) := by
  intro braces
  rw [List.foldlM_append, begins braces]
  exact ends braces

/-- A text of plain characters is balanced. -/
theorem balanced_of_plain
    {text : List Char}
    (plain : Plain text) :
    Balanced text := by
  intro braces
  induction text with
  | nil => rfl
  | cons character rest ih =>
      have first := plain character List.mem_cons_self
      simp only [isPlain, Bool.not_eq_true', List.contains_eq_mem, decide_eq_false_iff_not,
        List.mem_cons, List.not_mem_nil, or_false, not_or] at first
      have step : Mode.next? (.code braces) character = some (.code braces) := by
        simp [Mode.next?, first]
      rw [List.foldlM_cons, step]
      exact ih fun other member => plain other (List.mem_cons_of_mem _ member)

/-- A balanced text in braces is balanced. -/
theorem balanced_braces
    {text : List Char}
    (inside : Balanced text) :
    Balanced (openBrace :: text ++ [closeBrace]) := by
  intro braces
  have opened : Mode.next? (.code braces) openBrace = some (.code (braces + 1)) := by
    simp [Mode.next?, openBrace, Text.apostrophe]
  have closed : Mode.next? (.code (braces + 1)) closeBrace = some (.code braces) := by
    simp [Mode.next?, openBrace, closeBrace, Text.apostrophe]
  rw [List.cons_append, List.foldlM_cons, opened]
  show (text ++ [closeBrace]).foldlM Mode.next? (.code (braces + 1)) = _
  rw [List.foldlM_append, inside]
  show [closeBrace].foldlM Mode.next? (.code (braces + 1)) = _
  rw [List.foldlM_cons, closed]
  rfl

/-- A literal is balanced if its text does not leave it. -/
theorem balanced_literal
    {delimiter : Char}
    (quotes : IsDelimiter delimiter)
    {text : List Char}
    (inside : Within delimiter text) :
    Balanced (delimiter :: text ++ [delimiter]) := by
  intro braces
  have opened : Mode.next? (.code braces) delimiter = some (.literal delimiter braces) := by
    exact if_pos quotes
  have closed : Mode.next? (.literal delimiter braces) delimiter = some (.code braces) := by
    rcases quotes with rfl | rfl <;> simp [Mode.next?, Text.backslash, Text.apostrophe]
  rw [List.cons_append, List.foldlM_cons, opened]
  show (text ++ [delimiter]).foldlM Mode.next? (.literal delimiter braces) = _
  rw [List.foldlM_append, inside]
  show [delimiter].foldlM Mode.next? (.literal delimiter braces) = _
  rw [List.foldlM_cons, closed]
  rfl

/-- A spelled text does not leave its literal. -/
theorem within_of_spelled
    {delimiter : Char}
    {text : List Char}
    (spelled : Spelled delimiter text) :
    Within delimiter text := by
  intro braces
  induction spelled with
  | nil => rfl
  | @bare character _ other unescaped _ ih =>
      have step :
          Mode.next? (.literal delimiter braces) character = some (.literal delimiter braces) := by
        simp [Mode.next?, other, unescaped]
      rw [List.foldlM_cons, step]
      exact ih
  | escape character _ ih =>
      have opened :
          Mode.next? (.literal delimiter braces) Text.backslash =
            some (.escape delimiter braces) := by
        simp [Mode.next?]
      rw [List.foldlM_cons, opened]
      exact ih

/-- The signs of numbers are plain. -/
theorem isPlain_of_isSign
    {character : Char}
    (sign : isSign character = true) :
    isPlain character = true := by
  have none :
      (['"', Text.apostrophe, openBrace, closeBrace].all fun other => !isSign other) = true := by
    decide
  rw [isPlain, Bool.not_eq_true', List.contains_eq_mem, decide_eq_false_iff_not]
  intro member
  have other := List.all_eq_true.mp none character member
  rw [sign] at other
  cases other

/-- Constant expressions close the braces and the literals that they open. -/
theorem balanced_of_constant
    {text : List Char}
    (constant : Constant text) :
    Balanced text := by
  induction constant with
  | nil => exact fun _ => rfl
  | @sign character _ listed _ ih =>
      have first : Plain [character] := List.forall_mem_singleton.mpr (isPlain_of_isSign listed)
      exact balanced_append (balanced_of_plain first) ih
  | @literal delimiter text rest quotes inside _ ih =>
      have first := balanced_literal quotes (within_of_spelled inside)
      simpa using balanced_append first ih
  | @braces text rest _ _ inside ih =>
      have first := balanced_braces inside
      simpa using balanced_append first ih

theorem plain_append
    {first second : List Char}
    (begins : Plain first)
    (ends : Plain second) :
    Plain (first ++ second) :=
  List.forall_mem_append.mpr ⟨begins, ends⟩

/-- The characters of names are plain. -/
theorem isPlain_of_nameCharacter
    {character : Char}
    (taken : isNameCharacter character = true) :
    isPlain character = true := by
  simp [isPlain, not_nameCharacter taken '"' rfl,
    not_nameCharacter taken Text.apostrophe rfl,
    not_nameCharacter taken openBrace rfl,
    not_nameCharacter taken closeBrace rfl]

end Balance

section Names

/-- The characters of identifiers may stand in the names of markup. -/
theorem nameCharacter_of_continuesIdentifier
    {character : Char}
    (continues : Text.continuesIdentifier character = true) :
    isNameCharacter character = true := by
  simp only [Text.continuesIdentifier, Bool.or_eq_true, beq_iff_eq] at continues
  rcases continues with (taken | rfl) | rfl
  · simp [isNameCharacter, taken]
  · rfl
  · rfl

/-- What may begin an identifier may go on with one. -/
theorem continues_of_startsIdentifier
    {character : Char}
    (starts : Text.startsIdentifier character = true) :
    Text.continuesIdentifier character = true := by
  simp only [Text.startsIdentifier, Bool.or_eq_true] at starts
  simp only [Text.continuesIdentifier, Char.isAlphanum, Bool.or_eq_true]
  exact starts.imp_left fun letter => letter.imp_left fun alpha => .inl alpha

/-- Letters may stand in identifiers. -/
theorem continues_of_isAlpha
    {character : Char}
    (letter : character.isAlpha = true) :
    Text.continuesIdentifier character = true := by
  simp [Text.continuesIdentifier, Char.isAlphanum, letter]

/-- Digits may stand in identifiers. -/
theorem continues_of_isDigit
    {character : Char}
    (digit : character.isDigit = true) :
    Text.continuesIdentifier character = true := by
  simp [Text.continuesIdentifier, Char.isAlphanum, digit]

/-- A text that is one word. -/
structure IsWord (text : List Char) : Prop where
  filled : text ≠ []
  continues : ∀ character ∈ text, Text.continuesIdentifier character = true

instance (text : List Char) : Decidable (IsWord text) :=
  @decidable_of_iff _ (text ≠ [] ∧ ∀ character ∈ text, Text.continuesIdentifier character = true)
    ⟨fun both => ⟨both.1, both.2⟩, fun word => ⟨word.filled, word.continues⟩⟩
    (@instDecidableAnd _ _ inferInstance
      (List.decidableBAll (fun character => Text.continuesIdentifier character = true) text))

/-- An identifier is a word. -/
theorem isWord_of_isIdentifier
    {name : String}
    (identifier : Text.isIdentifier name = true) :
    IsWord name.toList := by
  unfold Text.isIdentifier at identifier
  cases spelled : name.toList with
  | nil =>
      rw [spelled] at identifier
      cases identifier
  | cons first rest =>
      rw [spelled] at identifier
      simp only [Bool.and_eq_true, List.all_eq_true] at identifier
      obtain ⟨⟨starts, continues⟩, _⟩ := identifier
      exact ⟨List.cons_ne_nil _ _,
        List.forall_mem_cons.mpr ⟨continues_of_startsIdentifier starts, continues⟩⟩

theorem plain_identifier
    {name : String}
    (identifier : Text.isIdentifier name = true) :
    Plain name.toList :=
  fun character member =>
    isPlain_of_nameCharacter
      (nameCharacter_of_continuesIdentifier
        ((isWord_of_isIdentifier identifier).continues character member))

/-- The access of a member is balanced, whatever the name. -/
theorem balanced_memberAccess
    (name : String) :
    Balanced (Text.memberAccess name).toList := by
  unfold Text.memberAccess
  split
  next identifier =>
    rw [String.toList_append]
    exact balanced_of_plain (plain_append (by decide) (plain_identifier identifier))
  next =>
    have inside := within_of_spelled (spelled_flatMap spelled_escapedChar name.toList)
    have literal := balanced_literal (.inr rfl) inside
    have opened : Balanced ['['] := balanced_of_plain (by decide)
    have closed : Balanced [']'] := balanced_of_plain (by decide)
    have whole := balanced_append opened (balanced_append literal closed)
    simpa [Text.quoted, Text.escaped] using whole

/-- The access of a member of a table is balanced. -/
theorem balanced_access
    {table : String}
    (plain : Plain table.toList)
    (name : String) :
    Balanced (table ++ Text.memberAccess name).toList := by
  rw [String.toList_append]
  exact balanced_append (balanced_of_plain plain) (balanced_memberAccess name)

/-- Three balanced texts in brackets are balanced. -/
theorem balanced_tripleText
    {x y z : String}
    (first : Balanced x.toList)
    (second : Balanced y.toList)
    (third : Balanced z.toList) :
    Balanced (tripleText x y z).toList := by
  unfold tripleText
  simp only [String.toList_append]
  have comma : Balanced ", ".toList := balanced_of_plain (by decide)
  refine balanced_append (balanced_append (balanced_append (balanced_append (balanced_append
    (balanced_append ?_ first) comma) second) comma) third) ?_
  · exact balanced_of_plain (by decide)
  · exact balanced_of_plain (by decide)

end Names

end SceneMarkup.Markup
