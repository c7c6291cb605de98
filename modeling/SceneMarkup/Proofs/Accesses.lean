import SceneMarkup.Proofs.Balance
import SceneMarkup.Proofs.Contents

namespace SceneMarkup.Markup

open Scene

/-!
# What an expression takes from a table

An expression is cut into words, literals and marks.  It takes a key from a
table where the table's word stands, not after a dot, with the key behind it:
after a dot, or as a literal in brackets.  Constant expressions take nothing,
and those that reach into a node or name a material take one key.
-/

section Scanning

/-- A token of an expression; a literal is known by what it stands for. -/
inductive Token
  | word (letters : List Char)
  | literal (letters : List Char)
  | mark (character : Char)
  deriving Repr, DecidableEq

/-- Where the scanner stands; the letters of what it is reading are gathered. -/
inductive Scan
  /-- In a word, or between tokens if there are no letters. -/
  | word (letters : List Char)
  | literal (delimiter : Char) (letters : List Char)
  /-- After a backslash in a literal. -/
  | escape (delimiter : Char) (letters : List Char)

/-- The word that ends here, if one does. -/
def wordOf (letters : List Char) : List Token :=
  if letters.isEmpty then [] else [.word letters]

/-- The tokens that are completed from here on; blanks only keep tokens apart. -/
def tokensFrom : Scan → List Char → List Token
  | .word letters, [] => wordOf letters
  | .literal _ _, [] => []
  | .escape _ _, [] => []
  | .word letters, character :: rest =>
      if Text.continuesIdentifier character then tokensFrom (.word (letters ++ [character])) rest
      else if IsDelimiter character then
        wordOf letters ++ tokensFrom (.literal character []) rest
      else if character = ' ' then wordOf letters ++ tokensFrom (.word []) rest
      else wordOf letters ++ .mark character :: tokensFrom (.word []) rest
  | .literal delimiter letters, character :: rest =>
      if character = Text.backslash then tokensFrom (.escape delimiter letters) rest
      else if character = delimiter then .literal letters :: tokensFrom (.word []) rest
      else tokensFrom (.literal delimiter (letters ++ [character])) rest
  | .escape delimiter letters, character :: rest =>
      tokensFrom (.literal delimiter (letters ++ [character])) rest

/-- The key that is accessed right here. -/
def keyAt? : List Token → Option (List Char)
  | .mark '.' :: .word key :: _ => some key
  | .mark '[' :: .literal key :: .mark ']' :: _ => some key
  | _ => none

/-- The keys taken from a table; a word after a dot is a key itself and no table. -/
def keysFrom (table : List Char) (dotted : Bool) : List Token → List (List Char)
  | [] => []
  | token :: rest =>
      (if token = .word table ∧ dotted = false then (keyAt? rest).toList else [])
        ++ keysFrom table (token = .mark '.') rest

/-- The keys that an expression takes from the table called `table`. -/
def accesses (table content : String) : List String :=
  (keysFrom table.toList false (tokensFrom (.word []) content.toList)).map String.ofList

end Scanning

section Steps

/-- The letters of a word are gathered until something else comes. -/
theorem tokensFrom_word
    {word : List Char}
    (continues : ∀ character ∈ word, Text.continuesIdentifier character = true)
    (letters rest : List Char) :
    tokensFrom (.word letters) (word ++ rest) = tokensFrom (.word (letters ++ word)) rest := by
  induction word generalizing letters with
  | nil => simp
  | cons character word ih =>
      obtain ⟨first, others⟩ := List.forall_mem_cons.mp continues
      rw [List.cons_append, tokensFrom, if_pos first, ih others, List.append_assoc,
        List.singleton_append]

/-- No word goes on at the beginning of the text. -/
def Breaks (text : List Char) : Prop :=
  (text.head?.all fun character => !Text.continuesIdentifier character) = true

instance (text : List Char) : Decidable (Breaks text) :=
  inferInstanceAs (Decidable (_ = true))

/-- A word ends where the text after it does not continue it. -/
theorem tokensFrom_breaks
    {rest : List Char}
    (breaks : Breaks rest)
    (letters : List Char) :
    tokensFrom (.word letters) rest = wordOf letters ++ tokensFrom (.word []) rest := by
  cases rest with
  | nil => simp [tokensFrom, wordOf]
  | cons character rest =>
      have ends : Text.continuesIdentifier character = false := by
        simpa [Breaks] using breaks
      simp only [tokensFrom, ends, Bool.false_eq_true, if_false]
      split_ifs <;> simp [wordOf]

/-- A mark ends the word before it and is a token of its own. -/
theorem tokensFrom_mark
    {character : Char}
    (breaks : Text.continuesIdentifier character = false)
    (unquoted : ¬ IsDelimiter character)
    (filled : character ≠ ' ')
    (letters rest : List Char) :
    tokensFrom (.word letters) (character :: rest) =
      wordOf letters ++ .mark character :: tokensFrom (.word []) rest := by
  rw [tokensFrom, breaks, if_neg Bool.false_ne_true, if_neg unquoted, if_neg filled]

/-- A literal stands for the text that was escaped. -/
theorem tokensFrom_escaped
    (text letters rest : List Char) :
    tokensFrom (.literal Text.apostrophe letters)
        (text.flatMap Text.escapedChar ++ Text.apostrophe :: rest) =
      .literal (letters ++ text) :: tokensFrom (.word []) rest := by
  induction text generalizing letters with
  | nil =>
      have other : Text.apostrophe ≠ Text.backslash := by
        decide
      simp [tokensFrom, other]
  | cons character text ih =>
      have step :
          tokensFrom (.literal Text.apostrophe letters)
              (Text.escapedChar character
                ++ (text.flatMap Text.escapedChar ++ Text.apostrophe :: rest)) =
            tokensFrom (.literal Text.apostrophe (letters ++ [character]))
              (text.flatMap Text.escapedChar ++ Text.apostrophe :: rest) := by
        unfold Text.escapedChar
        split
        next => simp [tokensFrom]
        next other =>
          rw [not_or] at other
          simp [tokensFrom, other]
      rw [List.flatMap_cons, List.append_assoc, step, ih, List.append_assoc,
        List.singleton_append]

/-- What is spelled in a literal does not end it. -/
theorem tokensFrom_spelled
    {delimiter : Char}
    {text : List Char}
    (spelled : Spelled delimiter text)
    (letters : List Char) :
    ∃ gathered, ∀ rest,
      tokensFrom (.literal delimiter letters) (text ++ rest) =
        tokensFrom (.literal delimiter gathered) rest := by
  -- The letters that are gathered depend on the spelling, but not on what follows it.
  induction spelled generalizing letters with
  | nil => exact ⟨letters, fun _ => rfl⟩
  | bare other unescaped _ ih =>
      obtain ⟨gathered, reads⟩ := ih (letters ++ [_])
      refine ⟨gathered, fun rest => ?_⟩
      rw [List.cons_append, tokensFrom, if_neg unescaped, if_neg other, reads]
  | escape character _ ih =>
      obtain ⟨gathered, reads⟩ := ih (letters ++ [character])
      refine ⟨gathered, fun rest => ?_⟩
      rw [List.cons_append, List.cons_append, tokensFrom, if_pos rfl, tokensFrom, reads]

end Steps

section Constants

/-- Letters that are no table's: the names of both tables have an `o` or an `m`. -/
def Mute (letters : List Char) : Prop :=
  ∀ character ∈ letters, character ≠ 'o' ∧ character ≠ 'm'

/-- No token is the word of a table. -/
def Silent (tokens : List Token) : Prop :=
  ∀ letters, .word letters ∈ tokens → Mute letters

/-- Reading the text goes from mute letters to mute letters and finds no word of a table. -/
def Quiet (text : List Char) : Prop :=
  ∀ letters, Mute letters →
    ∃ found gathered, Silent found ∧ Mute gathered ∧
      ∀ rest,
        tokensFrom (.word letters) (text ++ rest) = found ++ tokensFrom (.word gathered) rest

theorem mute_nil :
    Mute [] :=
  List.forall_mem_nil _

theorem silent_append
    {first second : List Token}
    (begins : Silent first)
    (ends : Silent second) :
    Silent (first ++ second) := by
  intro letters member
  rcases List.mem_append.mp member with before | after
  · exact begins letters before
  · exact ends letters after

/-- A word of mute letters is silent. -/
theorem silent_wordOf
    {letters : List Char}
    (mute : Mute letters) :
    Silent (wordOf letters) := by
  intro word member
  unfold wordOf at member
  split at member
  next => cases member
  next =>
    cases List.mem_singleton.mp member
    exact mute

theorem silent_singleton
    {token : Token}
    (noWord : ∀ letters, token ≠ .word letters) :
    Silent [token] := by
  intro letters member
  exact absurd (List.mem_singleton.mp member).symm (noWord letters)

theorem quiet_nil :
    Quiet [] :=
  fun letters mute => ⟨[], letters, fun _ member => (List.not_mem_nil member).elim, mute,
    fun _ => rfl⟩

/-- Two quiet texts are quiet together. -/
theorem quiet_append
    {first second : List Char}
    (begins : Quiet first)
    (ends : Quiet second) :
    Quiet (first ++ second) := by
  intro letters mute
  obtain ⟨found, middle, silent, middleMute, reads⟩ := begins letters mute
  obtain ⟨later, gathered, laterSilent, gatheredMute, laterReads⟩ := ends middle middleMute
  refine ⟨found ++ later, gathered, silent_append silent laterSilent, gatheredMute, ?_⟩
  intro rest
  rw [List.append_assoc, reads, laterReads, List.append_assoc]

/-- A mark is quiet, whatever word stands before it. -/
theorem quiet_mark
    {character : Char}
    (breaks : Text.continuesIdentifier character = false)
    (unquoted : ¬ IsDelimiter character) :
    Quiet [character] := by
  intro letters mute
  by_cases blank : character = ' '
  · refine ⟨wordOf letters, [], silent_wordOf mute, mute_nil, fun rest => ?_⟩
    rw [List.singleton_append, tokensFrom, breaks, if_neg Bool.false_ne_true, if_neg unquoted,
      if_pos blank]
  · have silent : Silent (wordOf letters ++ [.mark character]) :=
      silent_append (silent_wordOf mute) (silent_singleton fun _ => Token.noConfusion)
    refine ⟨_, [], silent, mute_nil, fun rest => ?_⟩
    rw [List.singleton_append, tokensFrom_mark breaks unquoted blank, List.append_assoc,
      List.singleton_append]

/-- A mute letter is quiet. -/
theorem quiet_letter
    {character : Char}
    (continues : Text.continuesIdentifier character = true)
    (mute : Mute [character]) :
    Quiet [character] := by
  intro letters before
  have gathered : Mute (letters ++ [character]) := List.forall_mem_append.mpr ⟨before, mute⟩
  refine ⟨[], _, fun _ member => (List.not_mem_nil member).elim, gathered, fun rest => ?_⟩
  rw [List.singleton_append, tokensFrom, if_pos continues]
  rfl

/-- Every sign of a number is quiet: the constant is spelt without the letters of the tables. -/
theorem quiet_sign
    {character : Char}
    (sign : isSign character = true) :
    Quiet [character] := by
  have none : (['"', Text.apostrophe, 'o', 'm'].all fun other => !isSign other) = true := by
    decide
  have differs : ∀ other ∈ ['"', Text.apostrophe, 'o', 'm'], character ≠ other := by
    rintro other member rfl
    have contrary := List.all_eq_true.mp none character member
    rw [sign] at contrary
    cases contrary
  cases continues : Text.continuesIdentifier character with
  | true =>
      refine quiet_letter continues (List.forall_mem_singleton.mpr ⟨?_, ?_⟩)
      · exact differs 'o' (by simp)
      · exact differs 'm' (by simp)
  | false =>
      refine quiet_mark continues ?_
      rintro (quote | apostrophe)
      · exact differs '"' (by simp) quote
      · exact differs Text.apostrophe (by simp) apostrophe

theorem continues_of_isDelimiter
    {character : Char}
    (quotes : IsDelimiter character) :
    Text.continuesIdentifier character = false := by
  rcases quotes with rfl | rfl <;> rfl

/-- A literal is quiet, whatever is spelled in it. -/
theorem quiet_literal
    {delimiter : Char}
    (quotes : IsDelimiter delimiter)
    {text : List Char}
    (inside : Spelled delimiter text) :
    Quiet (delimiter :: text ++ [delimiter]) := by
  intro letters mute
  obtain ⟨gathered, reads⟩ := tokensFrom_spelled inside []
  have silent : Silent (wordOf letters ++ [.literal gathered]) :=
    silent_append (silent_wordOf mute) (silent_singleton fun _ => Token.noConfusion)
  refine ⟨_, [], silent, mute_nil, fun rest => ?_⟩
  have unescaped : delimiter ≠ Text.backslash := by
    rcases quotes with rfl | rfl <;> decide
  rw [List.append_assoc, List.cons_append, tokensFrom, continues_of_isDelimiter quotes,
    if_neg Bool.false_ne_true, if_pos quotes, reads, List.singleton_append, tokensFrom,
    if_neg unescaped, if_pos rfl, List.append_assoc, List.singleton_append]

/-- A constant is quiet. -/
theorem quiet_of_constant
    {text : List Char}
    (constant : Constant text) :
    Quiet text := by
  induction constant with
  | nil => exact quiet_nil
  | sign listed _ ih => exact quiet_append (quiet_sign listed) ih
  | @literal delimiter text rest quotes inside _ ih =>
      simpa using quiet_append (quiet_literal quotes inside) ih
  | @braces text rest _ _ inside ih =>
      have opened : Quiet [openBrace] := quiet_mark rfl (by rintro (same | same) <;> cases same)
      have closed : Quiet [closeBrace] := quiet_mark rfl (by rintro (same | same) <;> cases same)
      simpa using quiet_append opened (quiet_append inside (quiet_append closed ih))

/-- No key of a table is taken by silent tokens. -/
theorem keysFrom_silent
    {table : List Char}
    (loud : ¬ Mute table)
    {tokens : List Token}
    (silent : Silent tokens)
    (dotted : Bool) :
    keysFrom table dotted tokens = [] := by
  induction tokens generalizing dotted with
  | nil => rfl
  | cons token rest ih =>
      have noTable : token ≠ .word table := by
        rintro rfl
        exact loud (silent table List.mem_cons_self)
      rw [keysFrom, if_neg (fun both => noTable both.1), List.nil_append]
      exact ih (fun letters member => silent letters (List.mem_cons_of_mem _ member)) _

/-- The tokens of a constant are silent. -/
theorem silent_of_constant
    {text : List Char}
    (constant : Constant text) :
    Silent (tokensFrom (.word []) text) := by
  obtain ⟨found, gathered, silent, mute, reads⟩ := quiet_of_constant constant [] mute_nil
  have whole := reads []
  rw [List.append_nil] at whole
  rw [whole]
  exact silent_append silent (silent_wordOf mute)

/-- Constant expressions take nothing from a table. -/
theorem accesses_constant
    {table content : String}
    (loud : ¬ Mute table.toList)
    (constant : Constant content.toList) :
    accesses table content = [] := by
  rw [accesses, keysFrom_silent loud (silent_of_constant constant), List.map_nil]

end Constants

section Keys

/-- The tokens of an access to a key of a table. -/
def accessTokens (table name : String) : List Token :=
  .word table.toList ::
    if Text.isIdentifier name then [.mark '.', .word name.toList]
    else [.mark '[', .literal name.toList, .mark ']']

theorem wordOf_filled
    {letters : List Char}
    (filled : letters ≠ []) :
    wordOf letters = [.word letters] := by
  rw [wordOf, List.isEmpty_eq_false_iff.mpr filled, if_neg Bool.false_ne_true]

/-- A name in brackets is read as one literal between two marks. -/
theorem tokensFrom_bracketed
    (letters : List Char)
    (name : String)
    (rest : List Char) :
    tokensFrom (.word letters) (("[" ++ Text.quoted name ++ "]").toList ++ rest) =
      wordOf letters ++ .mark '[' :: .literal name.toList :: .mark ']'
        :: tokensFrom (.word []) rest := by
  have spelled :
      ("[" ++ Text.quoted name ++ "]").toList ++ rest =
        '[' :: Text.apostrophe ::
          (name.toList.flatMap Text.escapedChar ++ Text.apostrophe :: ']' :: rest) := by
    simp [Text.quoted, Text.escaped]
  have opened :
      ∀ text, tokensFrom (.word []) (Text.apostrophe :: text) =
        tokensFrom (.literal Text.apostrophe []) text :=
    fun _ => rfl
  rw [spelled, tokensFrom_mark rfl (by decide) (by decide), opened, tokensFrom_escaped,
    List.nil_append, tokensFrom_mark rfl (by decide) (by decide)]
  rfl

/-- An access is read as the word of the table and the name, dotted or bracketed. -/
theorem tokensFrom_access
    {table : String}
    (isWord : IsWord table.toList)
    (name : String)
    {rest : List Char}
    (breaks : Breaks rest) :
    tokensFrom (.word []) ((table ++ Text.memberAccess name).toList ++ rest) =
      accessTokens table name ++ tokensFrom (.word []) rest := by
  rw [String.toList_append, List.append_assoc, tokensFrom_word isWord.continues, List.nil_append,
    Text.memberAccess, accessTokens]
  cases identifier : Text.isIdentifier name with
  | true =>
      obtain ⟨filled, continues⟩ := isWord_of_isIdentifier identifier
      rw [if_pos rfl, if_pos rfl, String.toList_append]
      show tokensFrom (.word table.toList) ('.' :: (name.toList ++ rest)) = _
      rw [tokensFrom_mark rfl (by decide) (by decide), wordOf_filled isWord.filled,
        tokensFrom_word continues, List.nil_append, tokensFrom_breaks breaks, wordOf_filled filled]
      rfl
  | false =>
      rw [if_neg Bool.false_ne_true, if_neg Bool.false_ne_true, tokensFrom_bracketed,
        wordOf_filled isWord.filled]
      rfl

/-- The key of a property tells its name. -/
theorem propertyKey_injective :
    Function.Injective Text.propertyKey := by
  have tokens :
      ∀ name, tokensFrom (.word []) (Text.propertyKey name).toList =
        if Text.isIdentifier name then [.word name.toList]
        else [.mark '[', .literal name.toList, .mark ']'] := by
    intro name
    rw [Text.propertyKey]
    split
    next identifier =>
      obtain ⟨filled, continues⟩ := isWord_of_isIdentifier identifier
      have word := tokensFrom_word continues [] []
      rw [List.append_nil] at word
      rw [word, List.nil_append, tokensFrom, wordOf_filled filled]
    next =>
      have bracketed := tokensFrom_bracketed [] name []
      rw [List.append_nil] at bracketed
      rw [bracketed]
      rfl
  -- Scanning a key gives back the name that it was made from.
  intro first second same
  have both := congrArg (fun key : String => tokensFrom (.word []) key.toList) same
  simp only [tokens] at both
  refine String.toList_inj.mp ?_
  split_ifs at both <;> simp at both
  · exact both
  · exact both

/-- An access takes its name from its own table and no key from another one. -/
theorem keysFrom_access
    (table : List Char)
    (other name : String)
    (rest : List Token) :
    keysFrom table false (accessTokens other name ++ rest) =
      (if other.toList = table then [name.toList] else []) ++ keysFrom table false rest := by
  unfold accessTokens
  split <;> by_cases same : other.toList = table <;> simp [keysFrom, keyAt?, same]

/-- A key after a dot is skipped. -/
theorem keysFrom_member
    (table word : List Char)
    (rest : List Token) :
    keysFrom table false (.mark '.' :: .word word :: rest) = keysFrom table false rest := by
  simp [keysFrom]

/-- A mark other than the dot takes no key. -/
theorem keysFrom_mark
    (table : List Char)
    {character : Char}
    (other : character ≠ '.')
    (rest : List Token) :
    keysFrom table false (.mark character :: rest) = keysFrom table false rest := by
  simp [keysFrom, other]

/-- The key that an access takes, read as a text. -/
theorem map_ofList_access
    (table other name : String) :
    (if other.toList = table.toList then [name.toList] else []).map String.ofList =
      if other = table then [name] else [] := by
  simp only [String.toList_inj]
  split <;> simp

end Keys

section Forms

variable {table : String}

theorem isWord_nodes :
    IsWord "nodes".toList :=
  ⟨by decide, List.all_eq_true.mp (by decide)⟩

theorem isWord_materials :
    IsWord "materials".toList :=
  ⟨by decide, List.all_eq_true.mp (by decide)⟩

/-- An expression that takes a member of a table takes one key from it. -/
theorem accesses_memberAccess
    {other : String}
    (isWord : IsWord other.toList)
    (name : String) :
    accesses table (other ++ Text.memberAccess name) = if other = table then [name] else [] := by
  have none : Breaks [] := rfl
  have tokens := tokensFrom_access isWord name none
  rw [List.append_nil] at tokens
  rw [accesses, tokens, keysFrom_access]
  show List.map String.ofList (_ ++ []) = _
  rw [List.append_nil, map_ofList_access]

/-- A property of a node takes the name of the node from the nodes. -/
theorem accesses_property
    (name : String)
    {property : String}
    (listed : property ∈ NodeContext.ownProperties) :
    accesses table (nodeExpression name ++ property) = if "nodes" = table then [name] else [] := by
  have shapes : ∀ property ∈ NodeContext.ownProperties,
      Breaks property.toList ∧
        tokensFrom (.word []) property.toList =
          [.mark '.', .word (property.toList.drop 1)] := by
    decide +kernel
  obtain ⟨breaks, tokens⟩ := shapes property listed
  rw [accesses, String.toList_append, nodeExpression, tokensFrom_access isWord_nodes name breaks,
    tokens, keysFrom_access, keysFrom_member]
  show List.map String.ofList (_ ++ []) = _
  rw [List.append_nil, map_ofList_access]

/-- The arguments of a mesh that draws several copies take its name twice. -/
theorem accesses_arguments
    (loud : ¬ Mute table.toList)
    (name : String)
    (count : Nat) :
    accesses table
        (tripleText (nodeExpression name ++ ".geometry") (nodeExpression name ++ ".material")
          (toString count)) =
      if "nodes" = table then [name, name] else [] := by
  have closing : Silent (tokensFrom (.word []) ((toString count).toList ++ [']'])) :=
    silent_of_constant (constant_of_signs (signs_append (signs_toString count) (by decide)))
  have spelled :
      (tripleText (nodeExpression name ++ ".geometry") (nodeExpression name ++ ".material")
          (toString count)).toList =
        '[' :: ((nodeExpression name).toList
          ++ (".geometry, ".toList ++ ((nodeExpression name).toList
            ++ (".material, ".toList ++ ((toString count).toList ++ [']']))))) := by
    simp [tripleText]
  have geometry :
      ∀ rest,
        tokensFrom (.word []) ((nodeExpression name).toList ++ (".geometry, ".toList ++ rest)) =
          accessTokens "nodes" name
            ++ .mark '.' :: .word "geometry".toList :: .mark ',' :: tokensFrom (.word []) rest :=
    fun rest =>
      tokensFrom_access isWord_nodes name (show Breaks (".geometry, ".toList ++ rest) from rfl)
  have material :
      ∀ rest,
        tokensFrom (.word []) ((nodeExpression name).toList ++ (".material, ".toList ++ rest)) =
          accessTokens "nodes" name
            ++ .mark '.' :: .word "material".toList :: .mark ',' :: tokensFrom (.word []) rest :=
    fun rest =>
      tokensFrom_access isWord_nodes name (show Breaks (".material, ".toList ++ rest) from rfl)
  have listed (word : List Char) (rest : List Token) :
      keysFrom table.toList false
          (accessTokens "nodes" name ++ .mark '.' :: .word word :: .mark ',' :: rest) =
        (if "nodes".toList = table.toList then [name.toList] else [])
          ++ keysFrom table.toList false rest := by
    rw [keysFrom_access, keysFrom_member, keysFrom_mark _ (by decide)]
  rw [accesses, spelled, tokensFrom_mark rfl (by decide) (by decide), geometry, material]
  show List.map String.ofList (keysFrom table.toList false (.mark '[' :: _)) = _
  rw [keysFrom_mark _ (by decide), listed, listed, keysFrom_silent loud closing, List.append_nil,
    List.map_append, map_ofList_access]
  split <;> rfl

example :
    accesses "nodes" "[nodes['A b'].geometry, nodes['A b'].material, 3]" = ["A b", "A b"] := by
  decide +kernel

end Forms

end SceneMarkup.Markup
