import SceneMarkup.Json.Token
import SceneMarkup.Proofs.Contents

namespace SceneMarkup.Markup

open Scene

/-!
# Name attributes read back

Between quotation marks a value ends at the next mark, and character references
in it are decoded.  Between braces it is a JSON string.  A name without a
quotation mark is written as it is, so it is read back unless something in it
reads like a character reference; a name with one is always read back.
-/

section Reading

variable (entities : String → Option Char)

/-- Characters that a reference is made of, between its ampersand and its semicolon. -/
def isReferenceCharacter (character : Char) : Bool :=
  character.isAlphanum || character == '#'

/-- The code point that a reference names: by a number, or by an entity in the table. -/
def codePoint? : List Char → Option Nat
  | '#' :: 'x' :: digits =>
      if digits.isEmpty then none
      else (digits.mapM Json.hexValue?).map fun values =>
        values.foldl (fun code value => 16 * code + value) 0
  | '#' :: digits =>
      if digits.isEmpty || !digits.all Char.isDigit then none
      else some (Json.digitsValue digits)
  | name => (entities (String.ofList name)).map Char.toNat

/-- The code point of the reference right behind an ampersand, and the length of the reference. -/
def reference? (text : List Char) : Option (Nat × Nat) :=
  let body := text.takeWhile isReferenceCharacter
  if text[body.length]? = some ';' then
    (codePoint? entities body).map fun code => (code, body.length + 1)
  else none

/--
The characters that a text stands for, when `taken` characters at its head belong to a reference
that is already decoded.  A reference to no character makes the text unreadable.
-/
def decodedFrom? : Nat → List Char → Option (List Char)
  | _, [] => some []
  | taken + 1, _ :: rest => decodedFrom? taken rest
  | 0, character :: rest =>
      if character = '&' then
        match reference? entities rest with
        | some (code, length) =>
            if code.isValidChar then (decodedFrom? length rest).map (Char.ofNat code :: ·)
            else none
        | none => (decodedFrom? 0 rest).map (character :: ·)
      else (decodedFrom? 0 rest).map (character :: ·)

/-- The text of a value that ends at the next quotation mark, with nothing behind it. -/
def readMarked? (text : List Char) : Option String :=
  let content := text.takeWhile (· ≠ '"')
  if text = content ++ ['"'] then (decodedFrom? entities 0 content).map String.ofList else none

/-- The text of a JSON string with a closing brace behind it. -/
def readBraced? (text : List Char) : Option String :=
  if text.getLast? = some '\x7d' then
    match Json.tokens? (text.dropLast.map some) with
    | some [.text wording] => wording.text?
    | _ => none
  else none

/-- The name that a written name attribute gives. -/
def readName? (written : String) : Option String :=
  match written.toList with
  | 'n' :: 'a' :: 'm' :: 'e' :: '=' :: '"' :: rest => readMarked? entities rest
  | 'n' :: 'a' :: 'm' :: 'e' :: '=' :: '\x7b' :: rest => readBraced? rest
  | _ => none

/-- Nothing behind an ampersand is a reference. -/
def Verbatim (text : List Char) : Prop :=
  ∀ rest, '&' :: rest <:+ text → reference? entities rest = none

end Reading

section References

variable {entities : String → Option Char}

/-- A text is taken verbatim if no reference begins in it. -/
theorem verbatim_cons
    {character : Char}
    {rest : List Char} :
    Verbatim entities (character :: rest) ↔
      (character = '&' → reference? entities rest = none) ∧ Verbatim entities rest := by
  constructor
  · intro verbatim
    refine ⟨?_, fun later ends => verbatim later (ends.trans (List.suffix_cons _ _))⟩
    rintro rfl
    exact verbatim rest List.suffix_rfl
  · rintro ⟨here, below⟩ later ends
    rcases List.suffix_cons_iff.mp ends with whole | behind
    · obtain ⟨rfl, rfl⟩ := List.cons.inj whole
      exact here rfl
    · exact below later behind

/-- A reference is not empty. -/
theorem pos_of_reference?
    {text : List Char}
    {code length : Nat}
    (refers : reference? entities text = some (code, length)) :
    0 < length := by
  simp only [reference?] at refers
  split at refers
  next =>
    obtain ⟨_, _, same⟩ := Option.map_eq_some_iff.mp refers
    obtain ⟨_, rfl⟩ := Prod.mk.inj same
    exact Nat.succ_pos _
  next => cases refers

/-- Decoding makes no text longer, and leaves out what is taken. -/
theorem length_decodedFrom?
    {taken : Nat}
    {text read : List Char}
    (decodes : decodedFrom? entities taken text = some read) :
    read.length ≤ text.length - taken := by
  induction text generalizing taken read with
  | nil =>
      obtain rfl : [] = read := by
        cases taken <;> exact Option.some.inj decodes
      exact Nat.zero_le _
  | cons character rest ih =>
      -- Whatever stands for the head, the rest is decoded from `later` characters on.
      have step :
          ∀ {later : Nat} {head : Char},
            (decodedFrom? entities later rest).map (head :: ·) = some read →
              read.length ≤ rest.length + 1 := by
        intro later head maps
        obtain ⟨tail, decoded, rfl⟩ := Option.map_eq_some_iff.mp maps
        have short := ih decoded
        simp only [List.length_cons]
        omega
      rw [List.length_cons]
      cases taken with
      | succ taken =>
          have short := ih decodes
          omega
      | zero =>
          rw [decodedFrom?] at decodes
          split at decodes
          next =>
            split at decodes
            next =>
              split at decodes
              next => exact step decodes
              next => cases decodes
            next => exact step decodes
          next => exact step decodes

/-- A text stands for itself exactly if nothing in it is a reference. -/
theorem decodedFrom?_eq_self_iff
    (text : List Char) :
    decodedFrom? entities 0 text = some text ↔ Verbatim entities text := by
  induction text with
  | nil =>
      refine ⟨fun _ rest ends => ?_, fun _ => rfl⟩
      cases List.suffix_nil.mp ends
  | cons character rest ih =>
      have plain :
          (decodedFrom? entities 0 rest).map (character :: ·) = some (character :: rest) ↔
            Verbatim entities rest := by
        rw [← ih, Option.map_eq_some_iff]
        simp
      rw [verbatim_cons, decodedFrom?]
      split
      next ampersand =>
        cases refers : reference? entities rest with
        | none =>
            rw [plain]
            simp
        | some found =>
            obtain ⟨code, length⟩ := found
            -- The reference is longer than the one character that it stands for.
            have shorter : ∀ {head : Char},
                (decodedFrom? entities length rest).map (head :: ·) ≠
                  some (character :: rest) := by
              intro head maps
              obtain ⟨tail, decodes, same⟩ := Option.map_eq_some_iff.mp maps
              have short := length_decodedFrom? decodes
              have long := pos_of_reference? refers
              have equal := congrArg List.length same
              have filled : 0 < rest.length := by
                rcases rest with _ | _
                · cases refers
                · exact Nat.succ_pos _
              simp only [List.length_cons] at equal
              omega
            have refuted : ¬ ((character = '&' → some (code, length) = none) ∧
                Verbatim entities rest) := by
              rintro ⟨nothing, _⟩
              cases nothing ampersand
            simp only [refuted, iff_false]
            split
            next => exact shorter
            next => simp
      next other =>
        rw [plain]
        simp [other]

end References

section Strings

open Json

theorem hexValue?_hexDigit :
    ∀ digit < 16, hexValue? (hexDigit digit) = some digit := by
  decide

/-- What is written for one character adds the character to the string that is open. -/
theorem steps_escapedChar
    (units : List (Option Nat))
    (tokens : List Json.Token)
    (character : Char) :
    ((escapedChar character).map some).foldlM Scanner.step? ⟨.text units, tokens⟩ =
      some ⟨.text (some character.toNat :: units), tokens⟩ := by
  unfold escapedChar
  split
  case h_8 notQuote notBackslash _ _ _ _ _ =>
    simp only
    split
    next control =>
      have high := hexValue?_hexDigit (character.toNat / 16) (by omega)
      have low := hexValue?_hexDigit (character.toNat % 16) (by omega)
      have zero : hexValue? '0' = some 0 := rfl
      have code : 16 * (character.toNat / 16) + character.toNat % 16 = character.toNat :=
        Nat.div_add_mod _ _
      simp [Scanner.step?, Scanner.take?, high, low, zero, code]
    next visible =>
      have quote : character ≠ '"' := fun same => notQuote same
      have backslash : character ≠ '\\' := fun same => notBackslash same
      simp [Scanner.step?, Scanner.take?, quote, backslash, visible]
  all_goals rfl

/-- A run of characters is gathered in the string that is open. -/
theorem steps_escaped
    (text : List Char)
    (units : List (Option Nat))
    (tokens : List Json.Token) :
    ((text.flatMap escapedChar).map some).foldlM Scanner.step? ⟨.text units, tokens⟩ =
      some ⟨.text ((text.map fun character => some character.toNat).reverse ++ units), tokens⟩ := by
  induction text generalizing units with
  | nil => rfl
  | cons character text ih =>
      rw [List.flatMap_cons, List.map_append, List.foldlM_append, steps_escapedChar]
      show List.foldlM _ _ _ = _
      rw [ih, List.map_cons, List.reverse_cons, List.append_assoc, List.singleton_append]

/-- No character is a surrogate, so its code stands for it. -/
theorem charsOfUnits?_toNat
    (text : List Char) :
    charsOfUnits? (text.map Char.toNat) = some text := by
  induction text with
  | nil => rfl
  | cons character text ih =>
      have valid : character.toNat < 0xd800 ∨
          (0xdfff < character.toNat ∧ character.toNat < 0x110000) :=
        character.valid
      have high : ¬ (0xd800 ≤ character.toNat ∧ character.toNat < 0xdc00) := by omega
      have low : ¬ (0xdc00 ≤ character.toNat ∧ character.toNat < 0xe000) := by omega
      rw [List.map_cons, charsOfUnits?.eq_def]
      simp only [if_neg high, if_neg low, ih, Option.map_some, Char.ofNat_toNat]

/-- Characters that are written as units are worded as they are. -/
theorem wordingOf_toNat
    (text : List Char) :
    wordingOf (text.map fun character => some character.toNat).reverse =
      .text (String.ofList text) := by
  have whole :
      (text.map fun character => some character.toNat).mapM id = some (text.map Char.toNat) := by
    induction text with
    | nil => rfl
    | cons character text ih => simp [ih]
  rw [wordingOf, List.reverse_reverse, whole]
  simp only [charsOfUnits?_toNat]

/-- A written string is one token, and it says what was written. -/
theorem tokens?_quotedText
    (text : String) :
    tokens? ((quotedText text).toList.map some) = some [.text (.text text)] := by
  have spelled : (quotedText text).toList.map some =
      some '"' :: ((text.toList.flatMap escapedChar).map some ++ [some '"']) := by
    simp [quotedText]
  rw [tokens?, spelled, List.foldlM_cons]
  show (List.foldlM Scanner.step? ⟨.text [], []⟩ _).bind _ = _
  rw [List.foldlM_append, steps_escaped, List.append_nil]
  show some [Json.Token.text (wordingOf _)] = _
  rw [wordingOf_toNat, String.ofList_toList]

end Strings

section Names

variable (entities : String → Option Char)

/-- A name in quotes is read with its references decoded. -/
theorem readName?_text
    {name : String}
    (unquoted : '"' ∉ name.toList) :
    readName? entities ((AttributeValue.text name).written "name") =
      (decodedFrom? entities 0 name.toList).map String.ofList := by
  have spelled : ((AttributeValue.text name).written "name").toList =
      'n' :: 'a' :: 'm' :: 'e' :: '=' :: '"' :: (name.toList ++ ['"']) := by
    simp [AttributeValue.written]
  have content : (name.toList ++ ['"']).takeWhile (· ≠ '"') = name.toList := by
    rw [List.takeWhile_append_of_pos, List.takeWhile_cons_of_neg, List.append_nil]
    · simp
    · intro character member
      exact decide_eq_true fun same => unquoted (same ▸ member)
  rw [readName?, spelled]
  simp only [readMarked?, content, if_true]

/-- A name in an expression is read as it is. -/
theorem readName?_quotedText
    (name : String) :
    readName? entities ((AttributeValue.expression (Json.quotedText name)).written "name") =
      some name := by
  have spelled : ((AttributeValue.expression (Json.quotedText name)).written "name").toList =
      'n' :: 'a' :: 'm' :: 'e' :: '=' :: '\x7b' ::
        ((Json.quotedText name).toList ++ ['\x7d']) := by
    simp [AttributeValue.written, braced]
  rw [readName?, spelled]
  simp only [readBraced?, List.getLast?_concat, if_true, List.dropLast_concat,
    tokens?_quotedText, Json.Wording.text?]

/-- A name is read back exactly if it holds the quote or no reference. -/
theorem readName?_nameValue
    (name : String) :
    readName? entities ((nameValue name).written "name") = some name ↔
      '"' ∈ name.toList ∨ Verbatim entities name.toList := by
  unfold nameValue
  split
  next quoted =>
    have member : '"' ∈ name.toList := List.contains_iff_mem.mp quoted
    simp [readName?_quotedText, member]
  next unquoted =>
    have absent : '"' ∉ name.toList := fun member => unquoted (List.contains_iff_mem.mpr member)
    have whole : ∀ read : Option (List Char),
        read.map String.ofList = some name ↔ read = some name.toList := by
      intro read
      cases read with
      | none => simp
      | some letters =>
          simp only [Option.map_some, Option.some.injEq]
          exact ⟨fun same => same ▸ (String.toList_ofList).symm,
            fun same => same ▸ String.ofList_toList⟩
    rw [readName?_text entities absent, whole, decodedFrom?_eq_self_iff]
    simp [absent]

/--
A name is read back from its attribute exactly if it has a quotation mark, and so stands as a
JSON string, or has nothing in it that reads like a character reference.  That goes for the name
attribute of every element, whatever entities there are.
-/
theorem name_reads_back_iff :
    (∀ name,
      readName? entities ((nameValue name).written "name") = some name ↔
        '"' ∈ name.toList ∨ Verbatim entities name.toList) ∧
      ∀ (labels : Labels) (id : NodeId), ∀ entry ∈ nameAttributes labels id,
        (readName? entities (entry.value.written entry.key) = some (labels.name id) ↔
          '"' ∈ (labels.name id).toList ∨ Verbatim entities (labels.name id).toList) := by
  refine ⟨readName?_nameValue entities, fun labels id entry member => ?_⟩
  rw [nameAttributes] at member
  split at member
  · obtain rfl := List.mem_singleton.mp member
    exact readName?_nameValue entities (labels.name id)
  · cases member

/-- An entity or a number in a name is decoded, so that another name is read. -/
theorem name_with_reference_is_not_read :
    let entities : String → Option Char := fun name => if name = "amp" then some '&' else none
    readName? entities ((nameValue "Salt &amp; Pepper").written "name") =
        some "Salt & Pepper" ∧
      readName? entities ((nameValue "&#65;").written "name") = some "A" := by
  decide +kernel

end Names

end SceneMarkup.Markup
