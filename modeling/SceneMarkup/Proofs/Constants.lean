import SceneMarkup.Proofs.Reader

namespace SceneMarkup.Markup

/-!
# Constant expressions

Most expressions of attributes hold numbers, angles, truth values or JSON.  They
are signs from a small alphabet, literals in which delimiters are escaped, and
such texts between braces.  How they nest and what they refer to can be told
from that alone.
-/

section Forms

/-- The signs of numbers, angles, truth values and lists. -/
def isSign (character : Char) : Bool :=
  character.isDigit
    || ['.', '+', '-', '*', '/', ',', ':', ' ', '[', ']', 'I', 'M', 'N', 'P', 'a', 'e', 'f', 'h',
      'i', 'l', 'n', 'r', 's', 't', 'u'].contains character

/-- A text of signs. -/
def Signs (text : List Char) : Prop :=
  ∀ character ∈ text, isSign character = true

instance (text : List Char) : Decidable (Signs text) :=
  List.decidableBAll (fun character => isSign character = true) text

/-- What may stand between two delimiters: a delimiter or a backslash inside is escaped. -/
inductive Spelled (delimiter : Char) : List Char → Prop
  | nil : Spelled delimiter []
  | bare
      {character : Char}
      {rest : List Char}
      (other : character ≠ delimiter)
      (unescaped : character ≠ Text.backslash)
      (tail : Spelled delimiter rest) :
      Spelled delimiter (character :: rest)
  | escape
      (character : Char)
      {rest : List Char}
      (tail : Spelled delimiter rest) :
      Spelled delimiter (Text.backslash :: character :: rest)

/-- A character that begins and ends literals. -/
def IsDelimiter (character : Char) : Prop :=
  character = '"' ∨ character = Text.apostrophe

instance (character : Char) : Decidable (IsDelimiter character) :=
  inferInstanceAs (Decidable (character = '"' ∨ character = Text.apostrophe))

/-- A text without words, but for those made of signs. -/
inductive Constant : List Char → Prop
  | nil : Constant []
  | sign
      {character : Char}
      {rest : List Char}
      (listed : isSign character = true)
      (tail : Constant rest) :
      Constant (character :: rest)
  | literal
      {delimiter : Char}
      {text rest : List Char}
      (quotes : IsDelimiter delimiter)
      (inside : Spelled delimiter text)
      (tail : Constant rest) :
      Constant (delimiter :: text ++ delimiter :: rest)
  | braces
      {text rest : List Char}
      (inside : Constant text)
      (tail : Constant rest) :
      Constant (openBrace :: text ++ closeBrace :: rest)

theorem signs_append
    {first second : List Char}
    (begins : Signs first)
    (ends : Signs second) :
    Signs (first ++ second) :=
  List.forall_mem_append.mpr ⟨begins, ends⟩

theorem signs_cons
    {character : Char}
    {text : List Char}
    (first : isSign character = true)
    (rest : Signs text) :
    Signs (character :: text) :=
  List.forall_mem_cons.mpr ⟨first, rest⟩

theorem spelled_append
    {delimiter : Char}
    {first second : List Char}
    (begins : Spelled delimiter first)
    (ends : Spelled delimiter second) :
    Spelled delimiter (first ++ second) := by
  induction begins with
  | nil => exact ends
  | bare other unescaped _ ih => exact Spelled.bare other unescaped ih
  | escape character _ ih => exact Spelled.escape character ih

/-- A text is spelled if each of its characters is. -/
theorem spelled_flatMap
    {delimiter : Char}
    {spelling : Char → List Char}
    (each : ∀ character, Spelled delimiter (spelling character))
    (text : List Char) :
    Spelled delimiter (text.flatMap spelling) := by
  induction text with
  | nil => exact Spelled.nil
  | cons character rest ih =>
      rw [List.flatMap_cons]
      exact spelled_append (each character) ih

theorem constant_append
    {first second : List Char}
    (begins : Constant first)
    (ends : Constant second) :
    Constant (first ++ second) := by
  induction begins with
  | nil => exact ends
  | sign listed _ ih => exact Constant.sign listed ih
  | literal quotes inside _ ih =>
      rw [List.append_assoc, List.cons_append]
      exact Constant.literal quotes inside ih
  | braces inside _ _ ih =>
      rw [List.append_assoc, List.cons_append]
      exact Constant.braces inside ih

/-- Signs alone are a constant. -/
theorem constant_of_signs
    {text : List Char}
    (signs : Signs text) :
    Constant text := by
  induction text with
  | nil => exact Constant.nil
  | cons character rest ih =>
      obtain ⟨first, others⟩ := List.forall_mem_cons.mp signs
      exact Constant.sign first (ih others)

/-- A spelled text between two delimiters is a constant. -/
theorem constant_literal
    {delimiter : Char}
    (quotes : IsDelimiter delimiter)
    {text : List Char}
    (inside : Spelled delimiter text) :
    Constant (delimiter :: text ++ [delimiter]) :=
  Constant.literal quotes inside Constant.nil

/-- A constant in braces is a constant. -/
theorem constant_braces
    {text : List Char}
    (inside : Constant text) :
    Constant (openBrace :: text ++ [closeBrace]) :=
  Constant.braces inside Constant.nil

/-- Constants with constants between them are a constant. -/
theorem constant_intercalate
    {separator : List Char}
    (between : Constant separator)
    {parts : List (List Char)}
    (each : ∀ part ∈ parts, Constant part) :
    Constant (separator.intercalate parts) := by
  induction parts with
  | nil => exact Constant.nil
  | cons part rest ih =>
      obtain ⟨first, others⟩ := List.forall_mem_cons.mp each
      cases rest with
      | nil => simpa [List.intercalate] using first
      | cons next more =>
          have later := ih others
          have whole := constant_append first (constant_append between later)
          simpa [List.intercalate] using whole

end Forms

section Numbers

open Decimal

theorem isSign_of_isDigit
    {character : Char}
    (digit : character.isDigit = true) :
    isSign character = true := by
  simp [isSign, digit]

theorem signs_digitChars
    (n : Nat) :
    Signs (digitChars n) :=
  fun _ member =>
    isSign_of_isDigit (Nat.isDigit_of_mem_toDigits (by decide) (by decide) member)

theorem signs_zeros
    (count : Nat) :
    Signs (zeros count) := by
  intro character member
  rw [List.eq_of_mem_replicate member]
  rfl

/-- Digits stay signs when a point and zeros are set among them. -/
theorem signs_positionalText
    (keepsPoint : Bool)
    {digits : List Char}
    (signs : Signs digits)
    (point : Int) :
    Signs (positionalText keepsPoint digits point) := by
  have fraction :
      ∀ text : List Char, Signs text →
        Signs (if text.isEmpty then (if keepsPoint then ['.', '0'] else []) else '.' :: text) := by
    intro text readable
    cases text with
    | nil => cases keepsPoint <;> decide
    | cons first rest => exact signs_cons (by decide) readable
  unfold positionalText
  simp only
  split
  next =>
    exact signs_cons (by decide) (fraction _ (signs_append (signs_zeros _) signs))
  next =>
    split
    next => exact signs_append (signs_append signs (signs_zeros _)) (fraction [] (by decide))
    next =>
      refine signs_append ?_ (fraction _ ?_)
      · exact fun character member => signs character (List.mem_of_mem_take member)
      · exact fun character member => signs character (List.mem_of_mem_drop member)

/-- Digits stay signs when an exponent is set behind them. -/
theorem signs_exponentText
    (plus : Bool)
    {digits : List Char}
    (signs : Signs digits)
    (power : Int) :
    Signs (exponentText plus digits power) := by
  have tail : Signs (digits.drop 1) :=
    fun character member => signs character (List.mem_of_mem_drop member)
  unfold exponentText
  simp only
  refine signs_append (signs_append (signs_append (signs_append ?_ ?_) ?_) ?_) ?_
  · exact fun character member => signs character (List.mem_of_mem_take member)
  · split
    next => decide
    next => exact signs_cons (by decide) tail
  · decide
  · split
    next => decide
    next => cases plus <;> decide
  · exact signs_digitChars _

/-- The text of a double consists of signs. -/
theorem signs_double
    (style : Notation)
    (x : Float) :
    Signs (style.text x).toList := by
  have digits : ∀ value : Digits, Signs (style.digitsText value) := by
    intro value
    unfold Notation.digitsText
    simp only
    split
    next => exact signs_positionalText _ (signs_digitChars _) _
    next => exact signs_exponentText _ (signs_digitChars _) _
  unfold Notation.text
  split
  next => decide
  next negative _ => cases negative <;> decide
  next negative magnitude _ =>
    rw [String.toList_ofList]
    cases negative with
    | true => exact signs_cons (by decide) (digits _)
    | false => exact digits _

theorem signs_toString
    (n : Nat) :
    Signs (toString n).toList := by
  show Signs n.repr.toList
  rw [Nat.toList_repr]
  exact signs_digitChars n

theorem signs_integer
    (value : Int) :
    Signs (toString value).toList := by
  cases value with
  | ofNat n => exact signs_toString n
  | negSucc n =>
      show Signs ("-" ++ (n + 1).repr).toList
      rw [String.toList_append]
      exact signs_append (by decide) (signs_toString (n + 1))

/-- The text of an angle consists of signs, spelt with the constant or not. -/
theorem signs_angleText
    (x : Float)
    (precision : UInt32) :
    Signs (angleText x precision).toList := by
  unfold angleText
  split
  next angle _ =>
    rw [String.toList_append]
    refine signs_append ?_ ?_
    · split <;> decide
    · cases angle with
      | quotient divisor =>
          rw [SymbolicAngle.text]
          split
          next => decide
          next =>
            rw [String.toList_append]
            exact signs_append (by decide) (signs_toString divisor)
      | multiple factor =>
          rw [SymbolicAngle.text, String.toList_append]
          exact signs_append (by decide) (signs_toString factor)
  next => exact signs_double _ _

/-- Three texts of signs in brackets are signs. -/
theorem signs_tripleText
    {x y z : String}
    (first : Signs x.toList)
    (second : Signs y.toList)
    (third : Signs z.toList) :
    Signs (tripleText x y z).toList := by
  unfold tripleText
  simp only [String.toList_append]
  have comma : Signs ", ".toList := by decide
  refine signs_append (signs_append (signs_append (signs_append (signs_append
    (signs_append ?_ first) comma) second) comma) third) ?_
  · decide
  · decide

/-- A number in an attribute is a constant. -/
theorem constant_numberText
    (x : Float)
    (precision : UInt32) :
    Constant (numberText x precision).toList :=
  constant_of_signs (signs_double _ _)

/-- An angle in an attribute is a constant. -/
theorem constant_angleText
    (x : Float)
    (precision : UInt32) :
    Constant (angleText x precision).toList :=
  constant_of_signs (signs_angleText _ _)

/-- A vector in an attribute is a constant. -/
theorem constant_vectorText
    (v : Scene.Vector)
    (precision : UInt32) :
    Constant (vectorText v precision).toList :=
  constant_of_signs (signs_tripleText (signs_double _ _) (signs_double _ _) (signs_double _ _))

/-- Three angles in an attribute are a constant. -/
theorem constant_anglesText
    (v : Scene.Vector)
    (precision : UInt32) :
    Constant (anglesText v precision).toList :=
  constant_of_signs
    (signs_tripleText (signs_angleText _ _) (signs_angleText _ _) (signs_angleText _ _))

end Numbers

section Literals

/-- An escaped character cannot end a literal between apostrophes. -/
theorem spelled_escapedChar
    (character : Char) :
    Spelled Text.apostrophe (Text.escapedChar character) := by
  unfold Text.escapedChar
  split
  next => exact Spelled.escape _ Spelled.nil
  next other =>
    rw [not_or] at other
    exact Spelled.bare other.2 other.1 Spelled.nil

/-- A hexadecimal digit is neither a quote nor a backslash. -/
theorem hexDigit_spec :
    ∀ n < 16, Json.hexDigit n ≠ '"' ∧ Json.hexDigit n ≠ Text.backslash := by
  decide

/-- An escaped character cannot end a literal between double quotes. -/
theorem spelled_jsonChar
    (character : Char) :
    Spelled '"' (Json.escapedChar character) := by
  unfold Json.escapedChar
  split
  case h_8 notQuote notBackslash _ _ _ _ _ =>
    simp only
    split
    next control =>
      obtain ⟨notQuoteHigh, notBackslashHigh⟩ := hexDigit_spec (character.toNat / 16) (by omega)
      obtain ⟨notQuoteLow, notBackslashLow⟩ := hexDigit_spec (character.toNat % 16) (by omega)
      have low := Spelled.bare notQuoteLow notBackslashLow Spelled.nil
      have digits := Spelled.bare notQuoteHigh notBackslashHigh low
      have zero : ∀ rest, Spelled '"' rest → Spelled '"' ('0' :: rest) :=
        fun _ tail => Spelled.bare (by decide) (by decide) tail
      exact Spelled.escape 'u' (zero _ (zero _ digits))
    next => exact Spelled.bare notQuote notBackslash Spelled.nil
  all_goals exact Spelled.escape _ Spelled.nil

/-- A quoted text of a data value is a constant. -/
theorem constant_quotedText
    (text : String) :
    Constant (Json.quotedText text).toList := by
  rw [Json.quotedText, String.toList_ofList]
  exact constant_literal (.inl rfl) (spelled_flatMap spelled_jsonChar text.toList)

theorem constant_number
    (number : Json.Number) :
    Constant number.text.toList := by
  cases number with
  | integer value => exact constant_of_signs (signs_integer value)
  | real value => exact constant_of_signs (signs_double _ _)

/-- Constants with commas between them are a constant. -/
theorem constant_list
    {parts : List String}
    (each : ∀ part ∈ parts, Constant part.toList) :
    Constant (",".intercalate parts).toList := by
  rw [String.toList_intercalate]
  refine constant_intercalate (constant_of_signs (by decide)) ?_
  intro part member
  obtain ⟨text, listed, rfl⟩ := List.mem_map.mp member
  exact each text listed

mutual

/-- JSON text is constant. -/
theorem constant_compact
    (value : Json.Value) :
    Constant value.compact.toList := by
  cases value with
  | null => exact constant_of_signs (by decide)
  | bool flag => cases flag <;> exact constant_of_signs (by decide)
  | number number => exact constant_number number
  | text text => exact constant_quotedText text
  | array items =>
      rw [Json.Value.compact, String.toList_append, String.toList_append]
      refine constant_append (constant_append ?_ (constant_list (constant_items items))) ?_
      · exact constant_of_signs (by decide)
      · exact constant_of_signs (by decide)
  | object members =>
      rw [Json.Value.compact, String.toList_append, String.toList_append]
      exact constant_braces (constant_list (constant_members members))

/-- The items of a list are constants if values are. -/
theorem constant_items
    (items : List Json.Value) :
    ∀ part ∈ Json.compactItems items, Constant part.toList := by
  cases items with
  | nil => simp [Json.compactItems]
  | cons item rest =>
      rw [Json.compactItems]
      exact List.forall_mem_cons.mpr ⟨constant_compact item, constant_items rest⟩

/-- The members of an object are constants if values are. -/
theorem constant_members
    (members : List (String × Json.Value)) :
    ∀ part ∈ Json.compactMembers members, Constant part.toList := by
  cases members with
  | nil => simp [Json.compactMembers]
  | cons member rest =>
      obtain ⟨key, value⟩ := member
      rw [Json.compactMembers]
      refine List.forall_mem_cons.mpr ⟨?_, constant_members rest⟩
      rw [String.toList_append, String.toList_append]
      exact constant_append
        (constant_append (constant_quotedText key) (constant_of_signs (by decide)))
        (constant_compact value)

end

end Literals

end SceneMarkup.Markup
