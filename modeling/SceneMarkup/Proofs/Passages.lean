import SceneMarkup.Proofs.Balance
import SceneMarkup.Proofs.Scopes

namespace SceneMarkup.Component

open Markup

/-!
# Passages that only use names

What varies from module to module, expressions and markup above all, only uses
names.  A passage is specified by the places where it may begin and where it
ends, and by the shared names that it may use; wherever it stands, it changes
nothing of what the reader knows but the uses of the scope around it.
-/

section Uses

/-- Every shared name among `names` is allowed. -/
def Covers (allowed names : List String) : Prop :=
  ∀ name ∈ names, name ∈ sharedNames → name ∈ allowed

instance (allowed names : List String) : Decidable (Covers allowed names) :=
  List.decidableBAll (fun name => name ∈ sharedNames → name ∈ allowed) names

/-- Names are used here, and the next closing brace ends no function. -/
structure Reading.Steady (reading : Reading) : Prop where
  role : reading.role = .used
  inside : 0 < reading.depth ∨ reading.function? = none

/-- The reading with one more open bracket. -/
def Reading.deeper (reading : Reading) : Reading :=
  { reading with depth := reading.depth + 1 }

variable {allowed : List String} {reading : Reading}

theorem covers_nil :
    Covers allowed [] :=
  List.forall_mem_nil _

/-- Two rows of names are covered together. -/
theorem covers_append
    {first second : List String}
    (begins : Covers allowed first)
    (ends : Covers allowed second) :
    Covers allowed (first ++ second) :=
  List.forall_mem_append.mpr ⟨begins, ends⟩

/-- What few allowed names cover is covered by more. -/
theorem Covers.mono
    {few names : List String}
    (covers : Covers few names)
    (known : ∀ name ∈ few, name ∈ allowed) :
    Covers allowed names :=
  fun name member shared => known name (covers name member shared)

theorem Reading.withUses_nil
    (reading : Reading) :
    reading.withUses [] = reading := by
  obtain ⟨role, depth, imports, types, outer, function?, finished⟩ := reading
  cases function? <;> simp [withUses, update]

/-- Uses are added one row after the other. -/
theorem Reading.withUses_append
    (reading : Reading)
    (first second : List String) :
    (reading.withUses first).withUses second = reading.withUses (second ++ first) := by
  obtain ⟨role, depth, imports, types, outer, function?, finished⟩ := reading
  cases function? <;> simp [withUses, update]

/-- Opening a brace and using names may be done in either order. -/
theorem Reading.deeper_withUses
    (reading : Reading)
    (names : List String) :
    (reading.withUses names).deeper = reading.deeper.withUses names := by
  obtain ⟨role, depth, imports, types, outer, function?, finished⟩ := reading
  cases function? <;> rfl

/-- Using names leaves a steady reading steady. -/
theorem Reading.Steady.withUses
    (steady : reading.Steady)
    (names : List String) :
    (reading.withUses names).Steady := by
  obtain ⟨role, depth, imports, types, outer, function?, finished⟩ := reading
  obtain ⟨used, inside⟩ := steady
  cases function? with
  | none => exact ⟨used, .inr rfl⟩
  | some scope =>
      refine ⟨used, .inl ?_⟩
      rcases inside with deep | outside
      · exact deep
      · cases outside

/-- Opening a brace leaves a steady reading steady. -/
theorem Reading.Steady.deeper
    (steady : reading.Steady) :
    reading.deeper.Steady :=
  ⟨steady.role, .inl (Nat.succ_pos reading.depth)⟩

/-- Closing a bracket undoes opening it. -/
theorem Reading.Steady.close_deeper
    (steady : reading.Steady) :
    reading.deeper.close = reading := by
  have depth : reading.deeper.depth = reading.depth + 1 := rfl
  rw [Reading.close]
  by_cases atTop : reading.depth = 0
  · have outside : reading.function? = none := steady.inside.resolve_left (by omega)
    rw [if_pos (by omega)]
    obtain ⟨role, depth, imports, types, outer, function?, finished⟩ := reading
    cases atTop
    cases outside
    simp [Reading.deeper]
  · rw [if_neg (by omega)]
    rfl

/-- An equals sign or a colon changes nothing where names are used. -/
theorem Reading.Steady.takeMark
    (steady : reading.Steady)
    {character : Char}
    (mark : character = '=' ∨ character = ':') :
    reading.takeMark character = reading := by
  obtain ⟨role, depth, imports, types, outer, function?, finished⟩ := reading
  cases steady.role
  rcases mark with rfl | rfl <;> rfl

/-- In a steady reading a name is a use. -/
theorem Reading.Steady.takeName
    (steady : reading.Steady)
    (name : String) :
    reading.takeName name = reading.withUses [name] := by
  rw [Reading.takeName, steady.role]

end Uses

section Places

/-- A word that is no keyword, and a shared name only if it is allowed. -/
structure Harmless (allowed : List String) (word : String) : Prop where
  free : ∀ keyword ∈ Keyword.all, keyword.text ≠ word
  covered : word ∈ sharedNames → word ∈ allowed

instance (allowed : List String) (word : String) : Decidable (Harmless allowed word) :=
  decidable_of_iff
    ((∀ keyword ∈ Keyword.all, keyword.text ≠ word) ∧ (word ∈ sharedNames → word ∈ allowed))
    ⟨fun both => ⟨both.1, both.2⟩, fun harmless => ⟨harmless.free, harmless.covered⟩⟩

/-- Where whatever has begun may end: the word before, if there is one, is harmless or a member. -/
def Place.Ready (allowed : List String) : Place → Prop
  | .code _ => True
  | .word dots letters => dots = 1 ∨ Harmless allowed (String.ofList letters)
  | .equals => True
  | .text => False
  | .literal _ => False
  | .escape _ => False

/-- Where signs may go on: the word before, if there is one, is made of signs. -/
def Place.Mild : Place → Prop
  | .code _ => True
  | .word _ letters => Signs letters
  | .equals => False
  | .text => False
  | .literal _ => False
  | .escape _ => False

/-- Reading the text from any place where it may begin leads to a place where it may end, and adds
uses of names, shared ones only if they are allowed. -/
def Passes
    (allowed : List String)
    (begins : Place → Prop)
    (text : List Char)
    (ends : Place → Prop) : Prop :=
  ∀ place, begins place →
    ∃ last names, ends last ∧ Covers allowed names ∧
      ∀ reading : Reading, reading.Steady →
        Cursor.run ⟨place, reading⟩ text = ⟨last, reading.withUses names⟩

/-- The reader is outside of everything, with nothing before it. -/
def Place.Rests (place : Place) : Prop :=
  place = .code 0

variable {allowed : List String} {begins middle ends : Place → Prop}

/-- Two texts are read one after the other. -/
theorem Cursor.run_append
    (cursor : Cursor)
    (first second : List Char) :
    cursor.run (first ++ second) = (cursor.run first).run second :=
  List.foldl_append

theorem passes_nil :
    Passes allowed begins [] begins := by
  intro place starts
  refine ⟨place, [], starts, covers_nil, fun reading _ => ?_⟩
  rw [Reading.withUses_nil]
  rfl

/-- Two passages are one if the second begins where the first ends. -/
theorem passes_append
    {first second : List Char}
    (before : Passes allowed begins first middle)
    (after : Passes allowed middle second ends) :
    Passes allowed begins (first ++ second) ends := by
  intro place starts
  obtain ⟨between, names, reached, covered, reads⟩ := before place starts
  obtain ⟨last, others, ended, othersCovered, readsOn⟩ := after between reached
  refine ⟨last, others ++ names, ended, covers_append othersCovered covered, ?_⟩
  intro reading steady
  rw [Cursor.run_append, reads reading steady, readsOn _ (steady.withUses names),
    Reading.withUses_append]

/-- A passage may begin at fewer places and be known to end at more. -/
theorem Passes.imp
    {text : List Char}
    {others lasts : Place → Prop}
    (passes : Passes allowed begins text ends)
    (starts : ∀ place, others place → begins place)
    (stops : ∀ place, ends place → lasts place) :
    Passes allowed others text lasts := by
  intro place known
  obtain ⟨last, names, ended, covered, reads⟩ := passes place (starts place known)
  exact ⟨last, names, stops last ended, covered, reads⟩

/-- Where nothing has begun anything may end. -/
theorem ready_of_rests
    {place : Place}
    (rests : place.Rests) :
    place.Ready allowed := by
  cases rests
  trivial

/-- Where nothing has begun signs may go on. -/
theorem mild_of_rests
    {place : Place}
    (rests : place.Rests) :
    place.Mild := by
  cases rests
  trivial

/-- A passage that ends at rest ends where anything may end. -/
theorem Passes.ready
    {text : List Char}
    (passes : Passes allowed begins text Place.Rests) :
    Passes allowed begins text (Place.Ready allowed) :=
  passes.imp (fun _ known => known) fun _ rests => ready_of_rests rests

/-- Passages that end where they may begin follow one another. -/
theorem passes_join
    {parts : List String}
    (each : ∀ part ∈ parts, Passes allowed begins part.toList begins) :
    Passes allowed begins (String.join parts).toList begins := by
  induction parts with
  | nil => exact passes_nil
  | cons part rest ih =>
      obtain ⟨first, others⟩ := List.forall_mem_cons.mp each
      rw [String.join_cons, String.toList_append]
      exact passes_append first (ih others)

/-- Parts with separators between them are passed. -/
theorem passes_intercalate
    {separator : String}
    (between : Passes allowed begins separator.toList begins)
    {parts : List String}
    (each : ∀ part ∈ parts, Passes allowed begins part.toList begins) :
    Passes allowed begins (separator.intercalate parts).toList begins := by
  rw [String.toList_intercalate]
  induction parts with
  | nil => exact passes_nil
  | cons part rest ih =>
      obtain ⟨first, others⟩ := List.forall_mem_cons.mp each
      cases rest with
      | nil => simpa [List.intercalate] using first
      | cons next more =>
          have whole := passes_append first (passes_append between (ih others))
          simpa [List.intercalate] using whole

end Places

section Characters

variable {allowed : List String} {place : Place}

/-- A word that is no keyword is a name. -/
theorem ofWord_of_free
    {word : String}
    (free : ∀ keyword ∈ Keyword.all, keyword.text ≠ word) :
    Piece.ofWord word = .name word := by
  have none : (Keyword.all.find? fun keyword => keyword.text == word) = none :=
    List.find?_eq_none.mpr fun keyword member same => free keyword member (beq_iff_eq.mp same)
  rw [Piece.ofWord, none]

/-- What is before a character that continues no word ends there, as one more use at most. -/
theorem take_breaks
    (ready : place.Ready allowed)
    {character : Char}
    (breaks : Text.continuesIdentifier character = false)
    (noText : place = .equals → character ≠ '"') :
    ∃ dots names, Covers allowed names ∧
      ∀ reading : Reading, reading.Steady →
        Cursor.take ⟨place, reading⟩ character =
          ⟨.behind dots character,
            (marksOf character).foldl Reading.take (reading.withUses names)⟩ := by
  cases place with
  | code dots =>
      refine ⟨dots, [], covers_nil, fun reading _ => ?_⟩
      rw [Reading.withUses_nil]
      rfl
  | equals =>
      refine ⟨0, [], covers_nil, fun reading _ => ?_⟩
      rw [Reading.withUses_nil, Cursor.take, Place.take, if_neg (noText rfl)]
  | word dots letters =>
      by_cases dropped : dots = 1 ∨ character = ':'
      · refine ⟨0, [], covers_nil, fun reading _ => ?_⟩
        rw [Reading.withUses_nil, Cursor.take, Place.take, breaks, if_neg Bool.false_ne_true,
          wordsOf, if_pos dropped]
        rfl
      · have harmless := ready.resolve_left fun member => dropped (.inl member)
        refine ⟨0, [String.ofList letters], List.forall_mem_singleton.mpr harmless.covered, ?_⟩
        intro reading steady
        rw [Cursor.take, Place.take, breaks, if_neg Bool.false_ne_true, wordsOf, if_neg dropped,
          ofWord_of_free harmless.free, ← steady.takeName]
        rfl
  | text => exact ready.elim
  | literal delimiter => exact ready.elim
  | escape delimiter => exact ready.elim

/-- Characters that end what is before them and begin nothing. -/
def isBreak (character : Char) : Bool :=
  !Text.continuesIdentifier character
    && !(['"', Text.apostrophe, '=', '.', '(', ')', openBrace, closeBrace].contains character)

/-- A character that only breaks words is passed and ends at rest. -/
theorem passes_break
    {character : Char}
    (plain : isBreak character = true) :
    Passes allowed (Place.Ready allowed) [character] Place.Rests := by
  simp only [isBreak, Bool.and_eq_true, Bool.not_eq_true', List.contains_eq_mem,
    decide_eq_false_iff_not, List.mem_cons, List.not_mem_nil, or_false, not_or] at plain
  obtain ⟨breaks, quote, apostrophe, equals, dot, opens, closes, openBrace, closeBrace⟩ := plain
  intro place ready
  obtain ⟨dots, names, covered, takes⟩ := take_breaks ready breaks fun _ => quote
  have rests : Place.behind dots character = .code 0 := by
    simp [Place.behind, breaks, IsDelimiter, quote, apostrophe, equals, dot]
  refine ⟨.code 0, names, rfl, covered, fun reading steady => ?_⟩
  have marked :
      (marksOf character).foldl Reading.take (reading.withUses names) = reading.withUses names := by
    by_cases colon : character = ':'
    · subst colon
      exact (steady.withUses names).takeMark (.inr rfl)
    · simp [marksOf, opens, closes, openBrace, closeBrace, equals, colon]
  rw [Cursor.run, List.foldl_cons, takes reading steady, rests, marked]
  rfl

theorem passes_equals :
    Passes allowed (Place.Ready allowed) ['='] fun place => place = .equals := by
  intro place ready
  obtain ⟨dots, names, covered, takes⟩ :=
    take_breaks ready (show Text.continuesIdentifier '=' = false from rfl) fun _ => by decide
  refine ⟨.equals, names, rfl, covered, fun reading steady => ?_⟩
  rw [Cursor.run, List.foldl_cons, takes reading steady]
  exact congrArg (Cursor.mk .equals) ((steady.withUses names).takeMark (.inl rfl))

/-- The text of an attribute ends at the next quotation mark. -/
theorem passes_text
    {content : List Char}
    (unquoted : '"' ∉ content) :
    Passes allowed (fun place => place = .equals) ('"' :: content ++ ['"']) Place.Rests := by
  have inside :
      ∀ reading, Cursor.run ⟨.text, reading⟩ (content ++ ['"']) = ⟨.code 0, reading⟩ := by
    intro reading
    induction content with
    | nil => rfl
    | cons character rest ih =>
        obtain ⟨other, others⟩ := not_or.mp (List.mem_cons.not.mp unquoted)
        rw [List.cons_append, Cursor.run, List.foldl_cons, Cursor.take, Place.take,
          if_neg (Ne.symm other)]
        exact ih others
  rintro _ rfl
  refine ⟨.code 0, [], rfl, covers_nil, fun reading _ => ?_⟩
  rw [Reading.withUses_nil]
  exact inside reading

/-- A spelled text does not leave its literal. -/
theorem run_spelled
    {delimiter : Char}
    {text : List Char}
    (spelled : Spelled delimiter text)
    (reading : Reading) :
    Cursor.run ⟨.literal delimiter, reading⟩ text = ⟨.literal delimiter, reading⟩ := by
  induction spelled with
  | nil => rfl
  | bare other unescaped _ ih =>
      rw [Cursor.run, List.foldl_cons, Cursor.take, Place.take, if_neg unescaped, if_neg other]
      exact ih
  | escape character _ ih => exact ih

/-- A literal uses nothing. -/
theorem passes_literal
    {delimiter : Char}
    (quotes : IsDelimiter delimiter)
    {text : List Char}
    (spelled : Spelled delimiter text) :
    Passes allowed (fun place => place.Ready allowed ∧ place ≠ .equals)
      (delimiter :: text ++ [delimiter]) Place.Rests := by
  rintro place ⟨ready, code⟩
  have breaks : Text.continuesIdentifier delimiter = false := by
    rcases quotes with rfl | rfl <;> rfl
  obtain ⟨dots, names, covered, takes⟩ :=
    take_breaks ready breaks fun same => absurd same code
  refine ⟨.code 0, names, rfl, covered, fun reading steady => ?_⟩
  have opened : Place.behind dots delimiter = .literal delimiter := by
    rw [Place.behind, breaks, if_neg Bool.false_ne_true, if_pos quotes]
  have unmarked : marksOf delimiter = [] := by
    rcases quotes with rfl | rfl <;> rfl
  have closed :
      ∀ reading, Cursor.run ⟨.literal delimiter, reading⟩ [delimiter] = ⟨.code 0, reading⟩ := by
    rcases quotes with rfl | rfl <;> exact fun _ => rfl
  rw [List.cons_append, Cursor.run, List.foldl_cons, takes reading steady, opened, unmarked,
    List.foldl_nil, ← Cursor.run, Cursor.run_append, run_spelled spelled, closed]

/-- Brackets around a passage are closed where they were opened. -/
theorem passes_brackets
    {opening closing : Char}
    (opens :
      Text.continuesIdentifier opening = false ∧ opening ≠ '"' ∧
        (∀ dots, Place.behind dots opening = .code 0) ∧
        ∀ reading, (marksOf opening).foldl Reading.take reading = reading.deeper)
    (closes :
      Text.continuesIdentifier closing = false ∧ closing ≠ '"' ∧
        (∀ dots, Place.behind dots closing = .code 0) ∧
        ∀ reading : Reading, reading.Steady →
          (marksOf closing).foldl Reading.take reading.deeper = reading)
    {text : List Char}
    (inside : Passes allowed Place.Rests text (Place.Ready allowed)) :
    Passes allowed (Place.Ready allowed) (opening :: text ++ [closing]) Place.Rests := by
  obtain ⟨openBreaks, openUnquoted, openRests, openMarks⟩ := opens
  obtain ⟨closeBreaks, closeUnquoted, closeRests, closeMarks⟩ := closes
  intro place ready
  obtain ⟨dots, before, beforeCovered, takes⟩ :=
    take_breaks ready openBreaks fun _ => openUnquoted
  obtain ⟨last, within, ended, withinCovered, reads⟩ := inside (.code 0) rfl
  obtain ⟨others, after, afterCovered, takesOn⟩ :=
    take_breaks ended closeBreaks fun _ => closeUnquoted
  refine ⟨.code 0, after ++ (within ++ before), rfl,
    covers_append afterCovered (covers_append withinCovered beforeCovered), ?_⟩
  intro reading steady
  have first := steady.withUses before
  have opened :
      Cursor.take ⟨place, reading⟩ opening = ⟨.code 0, (reading.withUses before).deeper⟩ := by
    rw [takes reading steady, openRests, openMarks]
  have closed :
      Cursor.take ⟨last, (reading.withUses before).deeper.withUses within⟩ closing =
        ⟨.code 0, reading.withUses (after ++ (within ++ before))⟩ := by
    rw [takesOn _ (first.deeper.withUses within), closeRests, Reading.withUses_append,
      ← Reading.deeper_withUses, Reading.withUses_append, closeMarks _ (steady.withUses _),
      List.append_assoc]
  rw [List.cons_append, Cursor.run, List.foldl_cons, opened, ← Cursor.run, Cursor.run_append,
    reads _ first.deeper, Cursor.run, List.foldl_cons, closed, List.foldl_nil]

/-- A passage in braces is a passage. -/
theorem passes_braces
    {text : List Char}
    (inside : Passes allowed Place.Rests text (Place.Ready allowed)) :
    Passes allowed (Place.Ready allowed) (openBrace :: text ++ [closeBrace]) Place.Rests := by
  refine passes_brackets ⟨rfl, by decide, fun _ => rfl, fun _ => rfl⟩
    ⟨rfl, by decide, fun _ => rfl, fun reading steady => ?_⟩ inside
  exact steady.close_deeper

/-- A passage in parentheses is a passage. -/
theorem passes_parentheses
    {text : List Char}
    (inside : Passes allowed Place.Rests text (Place.Ready allowed)) :
    Passes allowed (Place.Ready allowed) ('(' :: text ++ [')']) Place.Rests := by
  refine passes_brackets ⟨rfl, by decide, fun _ => rfl, fun _ => rfl⟩
    ⟨rfl, by decide, fun _ => rfl, fun reading steady => ?_⟩ inside
  obtain ⟨role, depth, imports, types, outer, function?, finished⟩ := reading
  cases steady.role
  rfl

end Characters

end SceneMarkup.Component
