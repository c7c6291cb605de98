import SceneMarkup.Proofs.Written

namespace SceneMarkup.Markup

/-!
# Reading markup back

The reader knows how elements are spelled and nothing of scenes.  It is an
automaton over characters that finds tags, with a stack of open elements on top.
A text between quotation marks goes up to the next one.  An expression goes up
to the brace that closes it: braces inside are counted, and literals are skipped
with what a backslash in them escapes.
-/

/-- The brace that begins an expression. -/
def openBrace : Char := '\x7b'

/-- The brace that ends an expression. -/
def closeBrace : Char := '\x7d'

/-- Where the reader stands in an expression that has opened `braces` of its own. -/
inductive Mode
  | code (braces : Nat)
  | literal (delimiter : Char) (braces : Nat)
  /-- After a backslash in a literal. -/
  | escape (delimiter : Char) (braces : Nat)
  deriving Repr, DecidableEq

/-- The mode after one more character; none at the brace that ends the expression. -/
def Mode.next? : Mode → Char → Option Mode
  | .code braces, character =>
      if character = '"' ∨ character = Text.apostrophe then some (.literal character braces)
      else if character = openBrace then some (.code (braces + 1))
      else if character = closeBrace then
        if braces = 0 then none else some (.code (braces - 1))
      else some (.code braces)
  | .literal delimiter braces, character =>
      if character = Text.backslash then some (.escape delimiter braces)
      else if character = delimiter then some (.code braces)
      else some (.literal delimiter braces)
  | .escape delimiter braces, _ => some (.literal delimiter braces)

/-- Tags and keys are made of letters, digits and a few signs. -/
def isNameCharacter (character : Char) : Bool :=
  character.isAlphanum || ['.', ':', '-', '_', '$'].contains character

/-- The heading with one more attribute. -/
def Heading.add (heading : Heading) (entry : WrittenAttribute) : Heading :=
  { heading with attributes := heading.attributes ++ [entry] }

/-- A tag and the blanks before it. -/
inductive Tag
  | opens (blanks : Nat) (heading : Heading)
  /-- The tag of an element that closes itself. -/
  | stands (blanks : Nat) (heading : Heading)
  | closes (blanks : Nat) (name : String)
  deriving Repr, DecidableEq

/-- Where the reader stands; the characters of what it is reading are gathered. -/
inductive Spot
  | line (blanks : Nat)
  | bracket (blanks : Nat)
  | name (blanks : Nat) (letters : List Char)
  | closing (blanks : Nat) (letters : List Char)
  | blank (blanks : Nat) (heading : Heading)
  | key (blanks : Nat) (heading : Heading) (letters : List Char)
  | equals (blanks : Nat) (heading : Heading) (key : String)
  | text (blanks : Nat) (heading : Heading) (key : String) (letters : List Char)
  | expression
      (blanks : Nat)
      (heading : Heading)
      (key : String)
      (letters : List Char)
      (mode : Mode)
  /-- After the value of an attribute. -/
  | filled (blanks : Nat) (heading : Heading)
  | slash (blanks : Nat) (heading : Heading)
  | ended
  deriving Repr, DecidableEq

/-- The reader and the tags it has found. -/
structure Reader where
  spot : Spot
  tags : List Tag
  deriving Repr, DecidableEq

namespace Reader

/-- Take the character after a tag's name or after an attribute. -/
def proceed? (tags : List Tag) (blanks : Nat) (heading : Heading) (character : Char) :
    Option Reader :=
  if character = ' ' then some ⟨.blank blanks heading, tags⟩
  else if character = '>' then some ⟨.ended, tags ++ [.opens blanks heading]⟩
  else none

/-- Take one character. -/
def take? (reader : Reader) (character : Char) : Option Reader :=
  match reader.spot with
  | .line blanks =>
      if character = ' ' then some ⟨.line (blanks + 1), reader.tags⟩
      else if character = '<' then some ⟨.bracket blanks, reader.tags⟩
      else none
  | .bracket blanks =>
      if character = '/' then some ⟨.closing blanks [], reader.tags⟩
      else if isNameCharacter character then some ⟨.name blanks [character], reader.tags⟩
      else none
  | .name blanks letters =>
      if isNameCharacter character then some ⟨.name blanks (letters ++ [character]), reader.tags⟩
      else proceed? reader.tags blanks ⟨String.ofList letters, []⟩ character
  | .closing blanks letters =>
      if isNameCharacter character then
        some ⟨.closing blanks (letters ++ [character]), reader.tags⟩
      else if character = '>' then
        some ⟨.ended, reader.tags ++ [.closes blanks (String.ofList letters)]⟩
      else none
  | .blank blanks heading =>
      if character = '/' then some ⟨.slash blanks heading, reader.tags⟩
      else if isNameCharacter character then some ⟨.key blanks heading [character], reader.tags⟩
      else none
  | .key blanks heading letters =>
      if isNameCharacter character then
        some ⟨.key blanks heading (letters ++ [character]), reader.tags⟩
      else if character = '=' then
        some ⟨.equals blanks heading (String.ofList letters), reader.tags⟩
      else proceed? reader.tags blanks (heading.add ⟨String.ofList letters, .flag⟩) character
  | .equals blanks heading key =>
      if character = '"' then some ⟨.text blanks heading key [], reader.tags⟩
      else if character = openBrace then
        some ⟨.expression blanks heading key [] (.code 0), reader.tags⟩
      else none
  | .text blanks heading key letters =>
      if character = '"' then
        some ⟨.filled blanks (heading.add ⟨key, .text (String.ofList letters)⟩), reader.tags⟩
      else some ⟨.text blanks heading key (letters ++ [character]), reader.tags⟩
  | .expression blanks heading key letters mode =>
      match mode.next? character with
      | some mode =>
          some ⟨.expression blanks heading key (letters ++ [character]) mode, reader.tags⟩
      | none =>
          some
            ⟨.filled blanks (heading.add ⟨key, .expression (String.ofList letters)⟩), reader.tags⟩
  | .filled blanks heading => proceed? reader.tags blanks heading character
  | .slash blanks heading =>
      if character = '>' then some ⟨.ended, reader.tags ++ [.stands blanks heading]⟩ else none
  | .ended => if character = '\n' then some ⟨.line 0, reader.tags⟩ else none

/-- Take the characters of a text. -/
def run (reader : Reader) (text : List Char) : Option Reader :=
  text.foldlM take? reader

end Reader

/-- An element that is still open, and the elements before it that stand beside it. -/
structure Frame where
  heading : Heading
  before : List Element

/-- The open elements, innermost first, and the finished elements inside the innermost one. -/
structure Nesting where
  frames : List Frame
  finished : List Element

namespace Nesting

/-- Take a tag, which must have two blanks before it for each level from `depth` on; a closing tag
must have the name of the element that it closes. -/
def take? (depth : Nat) (nesting : Nesting) : Tag → Option Nesting
  | .stands blanks heading =>
      if blanks = 2 * (depth + nesting.frames.length) then
        some ⟨nesting.frames,
          nesting.finished ++ [.void heading.tag heading.attributes]⟩
      else none
  | .opens blanks heading =>
      if blanks = 2 * (depth + nesting.frames.length) then
        some ⟨⟨heading, nesting.finished⟩ :: nesting.frames, []⟩
      else none
  | .closes blanks name =>
      match nesting.frames with
      | [] => none
      | frame :: outer =>
          if blanks = 2 * (depth + outer.length) ∧ name = frame.heading.tag then
            some ⟨outer,
              frame.before
                ++ [.element frame.heading.tag frame.heading.attributes nesting.finished]⟩
          else none

/-- Take tags one after another. -/
def run (depth : Nat) (nesting : Nesting) (tags : List Tag) : Option Nesting :=
  tags.foldlM (take? depth) nesting

end Nesting

/-- The elements that tags spell, the outermost at `depth`. -/
def nest (depth : Nat) (tags : List Tag) : Option (List Element) :=
  (Nesting.run depth ⟨[], []⟩ tags).bind fun nesting =>
    if nesting.frames.isEmpty then some nesting.finished else none

/-- Reading an expression that begins and ends outside of literals and closes what it opens. -/
def Balanced (text : List Char) : Prop :=
  ∀ braces, text.foldlM Mode.next? (.code braces) = some (.code braces)

/-- The text is a name that a reader finds the end of. -/
def IsName (text : String) : Prop :=
  text.toList ≠ [] ∧ ∀ character ∈ text.toList, isNameCharacter character = true

instance (text : String) : Decidable (IsName text) :=
  @instDecidableAnd _ _ inferInstance
    (List.decidableBAll (fun character => isNameCharacter character = true) text.toList)

/-- The value can be read back: a text holds no quotation mark, and an expression is balanced. -/
def AttributeValue.Legible : AttributeValue → Prop
  | .flag => True
  | .expression content => Balanced content.toList
  | .text content => '"' ∉ content.toList

/-- The key and the value can be read back. -/
structure WrittenAttribute.Legible (entry : WrittenAttribute) : Prop where
  key : IsName entry.key
  value : entry.value.Legible

/-- The tag and the attributes can be read back. -/
structure Heading.Legible (heading : Heading) : Prop where
  tag : IsName heading.tag
  attributes : ∀ entry ∈ heading.attributes, entry.Legible

/-- The headings of all elements can be read back. -/
def Legible (elements : List Element) : Prop :=
  ∀ heading ∈ headingsOf elements, heading.Legible

section Characters

/-- A character of a name differs from one that is none. -/
theorem not_nameCharacter
    {character : Char}
    (taken : isNameCharacter character = true)
    (other : Char)
    (refused : isNameCharacter other = false) :
    character ≠ other := by
  rintro rfl
  rw [taken] at refused
  cases refused

variable {tags : List Tag} {blanks : Nat} {heading : Heading}

/-- Two texts are read one after the other. -/
theorem Reader.run_append
    (reader : Reader)
    (first second : List Char) :
    reader.run (first ++ second) = (reader.run first).bind fun middle => middle.run second :=
  List.foldlM_append

/-- A run in two parts. -/
theorem Reader.run_trans
    {reader middle last : Reader}
    {first second : List Char}
    (start : reader.run first = some middle)
    (rest : middle.run second = some last) :
    reader.run (first ++ second) = some last := by
  rw [Reader.run_append, start]
  exact rest

theorem Reader.run_cons
    {reader last : Reader}
    {character : Char}
    {rest : List Char}
    (middle : Reader)
    (step : reader.take? character = some middle)
    (more : middle.run rest = some last) :
    reader.run (character :: rest) = some last := by
  rw [Reader.run, List.foldlM_cons, step]
  exact more

/-- Where each character is gathered, a text is. -/
theorem Reader.run_gather
    (place : List Char → Spot)
    {text : List Char}
    (gathers :
      ∀ letters, ∀ character ∈ text,
        Reader.take? ⟨place letters, tags⟩ character = some ⟨place (letters ++ [character]), tags⟩)
    (letters : List Char) :
    Reader.run ⟨place letters, tags⟩ text = some ⟨place (letters ++ text), tags⟩ := by
  induction text generalizing letters with
  | nil =>
      rw [List.append_nil]
      rfl
  | cons character rest ih =>
      refine Reader.run_cons _ (gathers letters character List.mem_cons_self) ?_
      have later := ih (fun before other member =>
        gathers before other (List.mem_cons_of_mem _ member)) (letters ++ [character])
      rwa [List.append_assoc, List.singleton_append] at later

/-- Blanks at the beginning of a line are counted. -/
theorem Reader.run_blanks
    (tags : List Tag)
    (blanks count : Nat) :
    Reader.run ⟨.line blanks, tags⟩ (List.replicate count ' ') =
      some ⟨.line (blanks + count), tags⟩ := by
  induction count generalizing blanks with
  | zero => rfl
  | succ count ih =>
      rw [List.replicate_succ]
      refine Reader.run_cons ⟨.line (blanks + 1), tags⟩ rfl ?_
      rw [ih, Nat.add_assoc, Nat.add_comm 1]

/-- The text of an expression is gathered as long as the reader stays inside. -/
theorem Reader.run_expression
    {key : String}
    {text : List Char}
    {start last : Mode}
    (moves : text.foldlM Mode.next? start = some last)
    (letters : List Char) :
    Reader.run ⟨.expression blanks heading key letters start, tags⟩ text =
      some ⟨.expression blanks heading key (letters ++ text) last, tags⟩ := by
  induction text generalizing start letters with
  | nil =>
      cases moves
      rw [List.append_nil]
      rfl
  | cons character rest ih =>
      rw [List.foldlM_cons] at moves
      cases next : start.next? character with
      | none =>
          rw [next] at moves
          cases moves
      | some mode =>
          rw [next] at moves
          refine Reader.run_cons
            ⟨.expression blanks heading key (letters ++ [character]) mode, tags⟩ ?_ ?_
          · simp only [Reader.take?, next]
          · have later := ih moves (letters ++ [character])
            rwa [List.append_assoc, List.singleton_append] at later

/-- The reader has a whole tag name or attribute behind it: what may follow is a blank or the end of
the tag. -/
structure Spot.Complete (spot : Spot) (blanks : Nat) (heading : Heading) : Prop where
  blank : ∀ tags, Reader.take? ⟨spot, tags⟩ ' ' = some ⟨.blank blanks heading, tags⟩
  ended :
    ∀ tags, Reader.take? ⟨spot, tags⟩ '>' = some ⟨.ended, tags ++ [.opens blanks heading]⟩

/-- The name of a tag is a heading without attributes. -/
theorem complete_name
    (blanks : Nat)
    (letters : List Char) :
    (Spot.name blanks letters).Complete blanks ⟨String.ofList letters, []⟩ :=
  ⟨fun _ => rfl, fun _ => rfl⟩

/-- A key without a value is a flag of the heading. -/
theorem complete_key
    (blanks : Nat)
    (heading : Heading)
    (letters : List Char) :
    (Spot.key blanks heading letters).Complete blanks
      (heading.add ⟨String.ofList letters, .flag⟩) :=
  ⟨fun _ => rfl, fun _ => rfl⟩

theorem complete_filled :
    (Spot.filled blanks heading).Complete blanks heading :=
  ⟨fun _ => rfl, fun _ => rfl⟩

/-- A name is gathered where its first character leads. -/
theorem Reader.run_word
    {start : Spot}
    (place : List Char → Spot)
    (begins :
      ∀ character, isNameCharacter character = true →
        Reader.take? ⟨start, tags⟩ character = some ⟨place [character], tags⟩)
    (gathers :
      ∀ letters character, isNameCharacter character = true →
        Reader.take? ⟨place letters, tags⟩ character = some ⟨place (letters ++ [character]), tags⟩)
    {text : String}
    (name : IsName text) :
    Reader.run ⟨start, tags⟩ text.toList = some ⟨place text.toList, tags⟩ := by
  obtain ⟨filled, letters⟩ := name
  cases spelled : text.toList with
  | nil => exact absurd spelled filled
  | cons first rest =>
      rw [spelled] at letters
      refine Reader.run_cons _ (begins first (letters first List.mem_cons_self)) ?_
      exact Reader.run_gather place
        (fun before character member =>
          gathers before character (letters character (List.mem_cons_of_mem _ member))) [first]

/-- The name of a tag is gathered to its end. -/
theorem Reader.run_name
    {text : String}
    (name : IsName text) :
    Reader.run ⟨.bracket blanks, tags⟩ text.toList = some ⟨.name blanks text.toList, tags⟩ := by
  refine Reader.run_word (Spot.name blanks) ?_ ?_ name
  · intro character taken
    simp [Reader.take?, taken, not_nameCharacter taken '/' rfl]
  · intro letters character taken
    simp [Reader.take?, taken]

/-- The key of an attribute is gathered to its end. -/
theorem Reader.run_key
    {text : String}
    (name : IsName text) :
    Reader.run ⟨.blank blanks heading, tags⟩ text.toList =
      some ⟨.key blanks heading text.toList, tags⟩ := by
  refine Reader.run_word (Spot.key blanks heading) ?_ ?_ name
  · intro character taken
    simp [Reader.take?, taken, not_nameCharacter taken '/' rfl]
  · intro letters character taken
    simp [Reader.take?, taken]

/-- A text without the quote is gathered as it stands. -/
theorem Reader.run_text
    {key : String}
    {text : List Char}
    (plain : '"' ∉ text) :
    Reader.run ⟨.text blanks heading key [], tags⟩ text =
      some ⟨.text blanks heading key text, tags⟩ := by
  refine Reader.run_gather (Spot.text blanks heading key) ?_ []
  intro letters character member
  have other : character ≠ '"' := fun same => plain (same ▸ member)
  simp [Reader.take?, other]

/-- A blank and an attribute are read where a tag's name or an attribute has been. -/
theorem Reader.run_attribute
    {spot : Spot}
    (complete : spot.Complete blanks heading)
    {entry : WrittenAttribute}
    (legible : entry.Legible)
    (tags : List Tag) :
    ∃ next : Spot,
      next.Complete blanks (heading.add entry) ∧
        Reader.run ⟨spot, tags⟩ (" " ++ entry.value.written entry.key).toList =
          some ⟨next, tags⟩ := by
  obtain ⟨key, value⟩ := entry
  obtain ⟨named, readable⟩ := legible
  have start :
      Reader.run ⟨spot, tags⟩ (' ' :: key.toList) = some ⟨.key blanks heading key.toList, tags⟩ :=
    Reader.run_cons _ (complete.blank tags) (Reader.run_key named)
  have equals :
      ∀ delimiter place, Reader.take? ⟨.equals blanks heading key, tags⟩ delimiter =
          some ⟨place, tags⟩ →
        Reader.run ⟨spot, tags⟩ (' ' :: key.toList ++ ['=', delimiter]) = some ⟨place, tags⟩ := by
    intro delimiter place step
    refine Reader.run_trans start (Reader.run_cons _ ?_ (Reader.run_cons _ step rfl))
    simp [Reader.take?, isNameCharacter]
  cases value with
  | flag =>
      refine ⟨.key blanks heading key.toList, ?_, ?_⟩
      · have behind := complete_key blanks heading key.toList
        rwa [String.ofList_toList] at behind
      · simpa [AttributeValue.written] using start
  | expression content =>
      refine ⟨.filled blanks (heading.add ⟨key, .expression content⟩), complete_filled, ?_⟩
      have opened := equals openBrace (.expression blanks heading key [] (.code 0)) rfl
      have inside :
          Reader.run ⟨.expression blanks heading key [] (.code 0), tags⟩ content.toList =
            some ⟨.expression blanks heading key content.toList (.code 0), tags⟩ :=
        Reader.run_expression (readable 0) []
      have closed :
          Reader.run ⟨.expression blanks heading key content.toList (.code 0), tags⟩ [closeBrace] =
            some ⟨.filled blanks (heading.add ⟨key, .expression content⟩), tags⟩ := by
        refine Reader.run_cons _ ?_ rfl
        simp [Reader.take?, Mode.next?, closeBrace, openBrace, Text.apostrophe]
      have whole := Reader.run_trans opened (Reader.run_trans inside closed)
      simpa [AttributeValue.written, braced, openBrace, closeBrace] using whole
  | text content =>
      refine ⟨.filled blanks (heading.add ⟨key, .text content⟩), complete_filled, ?_⟩
      have opened := equals '"' (.text blanks heading key []) rfl
      have closed :
          Reader.run ⟨.text blanks heading key content.toList, tags⟩ ['"'] =
            some ⟨.filled blanks (heading.add ⟨key, .text content⟩), tags⟩ := by
        refine Reader.run_cons _ ?_ rfl
        simp [Reader.take?]
      have whole := Reader.run_trans opened (Reader.run_trans (Reader.run_text readable) closed)
      simpa [AttributeValue.written] using whole

/-- Attributes are read one after another. -/
theorem Reader.run_attributes
    {spot : Spot}
    (complete : spot.Complete blanks heading)
    {entries : List WrittenAttribute}
    (legible : ∀ entry ∈ entries, entry.Legible)
    (tags : List Tag) :
    ∃ next : Spot,
      next.Complete blanks ⟨heading.tag, heading.attributes ++ entries⟩ ∧
        Reader.run ⟨spot, tags⟩ (attributesText entries).toList = some ⟨next, tags⟩ := by
  induction entries generalizing spot heading with
  | nil =>
      rw [List.append_nil]
      exact ⟨spot, complete, rfl⟩
  | cons entry rest ih =>
      obtain ⟨middle, behind, first⟩ :=
        Reader.run_attribute complete (legible entry List.mem_cons_self) tags
      obtain ⟨next, whole, others⟩ :=
        ih behind fun other member => legible other (List.mem_cons_of_mem _ member)
      refine ⟨next, ?_, ?_⟩
      · simpa [Heading.add] using whole
      · rw [attributesText, List.map_cons, String.join_cons, String.toList_append]
        exact Reader.run_trans first others

/-- The tag of an element is read up to what ends it. -/
theorem Reader.run_opening
    (legible : heading.Legible)
    (depth : Nat)
    (tags : List Tag) :
    ∃ next : Spot,
      next.Complete (2 * depth) heading ∧
        Reader.run ⟨.line 0, tags⟩
            (indentation depth ++ "<" ++ heading.tag ++ attributesText heading.attributes).toList =
          some ⟨next, tags⟩ := by
  have named := complete_name (2 * depth) heading.tag.toList
  obtain ⟨next, complete, attributes⟩ := Reader.run_attributes named legible.attributes tags
  refine ⟨next, ?_, ?_⟩
  · simpa using complete
  · have indented := Reader.run_blanks tags 0 (2 * depth)
    have bracket :
        Reader.run ⟨.line (0 + 2 * depth), tags⟩ ['<'] = some ⟨.bracket (2 * depth), tags⟩ := by
      rw [Nat.zero_add]
      rfl
    have whole := Reader.run_trans indented
      (Reader.run_trans bracket (Reader.run_trans (Reader.run_name legible.tag) attributes))
    simpa [indentation] using whole

/-- A closing tag is read with the blanks before it. -/
theorem Reader.run_closing
    {name : String}
    (named : IsName name)
    (depth : Nat)
    (tags : List Tag) :
    Reader.run ⟨.line 0, tags⟩ (indentation depth ++ "</" ++ name ++ ">\n").toList =
      some ⟨.line 0, tags ++ [.closes (2 * depth) name]⟩ := by
  have indented := Reader.run_blanks tags 0 (2 * depth)
  have bracket :
      Reader.run ⟨.line (0 + 2 * depth), tags⟩ ['<', '/'] =
        some ⟨.closing (2 * depth) [], tags⟩ := by
    rw [Nat.zero_add]
    rfl
  have letters :
      Reader.run ⟨.closing (2 * depth) [], tags⟩ name.toList =
        some ⟨.closing (2 * depth) name.toList, tags⟩ := by
    refine Reader.run_gather (Spot.closing (2 * depth)) ?_ []
    intro before character member
    simp [Reader.take?, named.2 character member]
  have ended :
      Reader.run ⟨.closing (2 * depth) name.toList, tags⟩ ['>', '\n'] =
        some ⟨.line 0, tags ++ [.closes (2 * depth) name]⟩ := by
    refine Reader.run_cons ⟨.ended, tags ++ [.closes (2 * depth) name]⟩ ?_
      (Reader.run_cons _ rfl rfl)
    simp [Reader.take?, isNameCharacter]
  have whole :=
    Reader.run_trans indented (Reader.run_trans bracket (Reader.run_trans letters ended))
  simpa [indentation] using whole

end Characters

section Elements

mutual

/-- The tags of an element and of all inside it, in the order written. -/
def Element.tags (depth : Nat) : Element → List Tag
  | .void tag attributes => [.stands (2 * depth) ⟨tag, attributes⟩]
  | .element tag attributes children =>
      .opens (2 * depth) ⟨tag, attributes⟩
        :: (tagsOf (depth + 1) children ++ [.closes (2 * depth) tag])

/-- The tags of elements that stand side by side. -/
def tagsOf (depth : Nat) : List Element → List Tag
  | [] => []
  | element :: rest => element.tags depth ++ tagsOf depth rest

end

theorem legible_void
    {tag : String}
    {attributes : List WrittenAttribute}
    (legible : Legible [.void tag attributes]) :
    Heading.Legible ⟨tag, attributes⟩ := by
  unfold Legible at legible
  rw [headingsOf, Element.headings, headingsOf, List.append_nil] at legible
  exact List.forall_mem_singleton.mp legible

/-- An element is legible only if its heading and its children are. -/
theorem legible_element
    {tag : String}
    {attributes : List WrittenAttribute}
    {children : List Element}
    (legible : Legible [.element tag attributes children]) :
    Heading.Legible ⟨tag, attributes⟩ ∧ Legible children := by
  unfold Legible at legible ⊢
  rw [headingsOf, Element.headings, headingsOf, List.append_nil] at legible
  exact List.forall_mem_cons.mp legible

theorem legible_cons
    {element : Element}
    {rest : List Element}
    (legible : Legible (element :: rest)) :
    Legible [element] ∧ Legible rest := by
  unfold Legible at legible ⊢
  rw [headingsOf] at legible
  rw [headingsOf, headingsOf, List.append_nil]
  exact List.forall_mem_append.mp legible

mutual

/-- The lines of a legible element are read as its tags. -/
theorem Reader.run_element
    (element : Element)
    (legible : Legible [element])
    (depth : Nat)
    (tags : List Tag) :
    Reader.run ⟨.line 0, tags⟩ (element.text depth).toList =
      some ⟨.line 0, tags ++ element.tags depth⟩ := by
  cases element with
  | void tag attributes =>
      obtain ⟨spot, complete, opening⟩ := Reader.run_opening (legible_void legible) depth tags
      rw [Element.text, Element.tags]
      have ended :
          Reader.run ⟨spot, tags⟩ " />\n".toList =
            some ⟨.line 0, tags ++ [.stands (2 * depth) ⟨tag, attributes⟩]⟩ :=
        Reader.run_cons _ (complete.blank tags) rfl
      simpa using Reader.run_trans opening ended
  | element tag attributes children =>
      obtain ⟨heading, inside⟩ := legible_element legible
      obtain ⟨spot, complete, opening⟩ := Reader.run_opening heading depth tags
      rw [Element.text, Element.tags]
      have ended :
          Reader.run ⟨spot, tags⟩ ">\n".toList =
            some ⟨.line 0, tags ++ [.opens (2 * depth) ⟨tag, attributes⟩]⟩ :=
        Reader.run_cons _ (complete.ended tags) rfl
      have lines := Reader.run_elements children inside (depth + 1)
        (tags ++ [.opens (2 * depth) ⟨tag, attributes⟩])
      have closing := Reader.run_closing heading.tag depth
        (tags ++ [.opens (2 * depth) ⟨tag, attributes⟩] ++ tagsOf (depth + 1) children)
      have whole := Reader.run_trans opening
        (Reader.run_trans ended (Reader.run_trans lines closing))
      simpa using whole

/-- The lines of legible elements are read as their tags. -/
theorem Reader.run_elements
    (elements : List Element)
    (legible : Legible elements)
    (depth : Nat)
    (tags : List Tag) :
    Reader.run ⟨.line 0, tags⟩ (elementsText depth elements).toList =
      some ⟨.line 0, tags ++ tagsOf depth elements⟩ := by
  cases elements with
  | nil =>
      rw [elementsText, tagsOf, List.append_nil]
      rfl
  | cons element rest =>
      obtain ⟨first, others⟩ := legible_cons legible
      have whole := Reader.run_trans (Reader.run_element element first depth tags)
        (Reader.run_elements rest others depth (tags ++ element.tags depth))
      rw [elementsText, tagsOf, String.toList_append, whole, List.append_assoc]

end

/-- Two rows of tags are nested one after the other. -/
theorem Nesting.run_append
    {depth : Nat}
    {start middle last : Nesting}
    {first second : List Tag}
    (begins : start.run depth first = some middle)
    (ends : middle.run depth second = some last) :
    start.run depth (first ++ second) = some last := by
  rw [Nesting.run, List.foldlM_append]
  rw [Nesting.run] at begins
  rw [begins]
  exact ends

mutual

/-- The tags of an element become the element, beside what is finished already. -/
theorem Nesting.run_element
    (element : Element)
    (depth : Nat)
    (frames : List Frame)
    (finished : List Element) :
    Nesting.run depth ⟨frames, finished⟩ (element.tags (depth + frames.length)) =
      some ⟨frames, finished ++ [element]⟩ := by
  cases element with
  | void tag attributes =>
      rw [Element.tags]
      simp [Nesting.run, Nesting.take?]
  | element tag attributes children =>
      rw [Element.tags, ← List.singleton_append]
      have opened :
          Nesting.run depth ⟨frames, finished⟩
              [.opens (2 * (depth + frames.length)) ⟨tag, attributes⟩] =
            some ⟨⟨⟨tag, attributes⟩, finished⟩ :: frames, []⟩ := by
        simp [Nesting.run, Nesting.take?]
      have inside := Nesting.run_elements children depth (⟨⟨tag, attributes⟩, finished⟩ :: frames) []
      have closed :
          Nesting.run depth ⟨⟨⟨tag, attributes⟩, finished⟩ :: frames, children⟩
              [.closes (2 * (depth + frames.length)) tag] =
            some ⟨frames, finished ++ [.element tag attributes children]⟩ := by
        simp [Nesting.run, Nesting.take?]
      exact Nesting.run_append opened (Nesting.run_append inside closed)

/-- The tags of elements become the elements, beside what is finished already. -/
theorem Nesting.run_elements
    (elements : List Element)
    (depth : Nat)
    (frames : List Frame)
    (finished : List Element) :
    Nesting.run depth ⟨frames, finished⟩ (tagsOf (depth + frames.length) elements) =
      some ⟨frames, finished ++ elements⟩ := by
  cases elements with
  | nil =>
      rw [tagsOf, List.append_nil]
      rfl
  | cons element rest =>
      rw [tagsOf]
      have whole := Nesting.run_append (Nesting.run_element element depth frames finished)
        (Nesting.run_elements rest depth frames (finished ++ [element]))
      rwa [List.append_assoc, List.singleton_append] at whole

end

end Elements

end SceneMarkup.Markup
