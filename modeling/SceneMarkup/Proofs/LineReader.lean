import SceneMarkup.Proofs.Balance
import SceneMarkup.Proofs.Scopes

namespace SceneMarkup.Component

open Scene Markup

/-!
# Reading a module by its lines

The reader takes a module line by line; a line break inside of a literal ends no
line.  It heeds the lines that begin and end a block, those inside a block, which
hold a key and a value, and the first line of the component that defines the
instances.  At the line that begins the markup it hands over to the reader of
markup, up to the tag that ends it.  It knows the layout of modules and nothing
of scenes.
-/

/-- Whether a reader is inside of a literal. -/
inductive Quoting
  | code
  | literal (delimiter : Char)
  /-- After a backslash in a literal. -/
  | escape (delimiter : Char)
  deriving Repr, DecidableEq

/-- The quoting after one more character; none at `stop` outside of literals. -/
def Quoting.next? (stop : Char) : Quoting → Char → Option Quoting
  | .code, character =>
      if character = stop then none
      else if IsDelimiter character then some (.literal character)
      else some .code
  | .literal delimiter, character =>
      if character = Text.backslash then some (.escape delimiter)
      else if character = delimiter then some .code
      else some (.literal delimiter)
  | .escape delimiter, _ => some (.literal delimiter)

/-- What stands before the first `stop` outside of literals, and what stands behind it. -/
def splitFrom? (stop : Char) : Quoting → List Char → List Char → Option (List Char × List Char)
  | _, _, [] => none
  | quoting, before, character :: rest =>
      match quoting.next? stop character with
      | some quoting => splitFrom? stop quoting (before ++ [character]) rest
      | none => some (before, rest)

/-- The blocks of a module, with one key a line. -/
inductive Block
  | nodes
  | materials
  | instances
  deriving Repr, DecidableEq

namespace Block

/-- Every block. -/
def all : List Block :=
  [.nodes, .materials, .instances]

/-- The line before a block. -/
def opening : Block → String
  | .nodes => "  nodes: \x7b"
  | .materials => "  materials: \x7b"
  | .instances => "    () => (\x7b"

/-- The line behind a block. -/
def closing : Block → String
  | .nodes => "  \x7d"
  | .materials => "  \x7d"
  | .instances => "    \x7d),"

/-- How many blanks are before a key. -/
def margin : Block → Nat
  | .nodes => 4
  | .materials => 4
  | .instances => 6

end Block

/-- A key, and what stands behind its colon, as they are written. -/
abbrev Row := String × String

/-- The key and the value in a line. -/
def readRow? (margin : Nat) (line : List Char) : Option Row :=
  if (List.replicate margin ' ').isPrefixOf line then
    match splitFrom? ':' .code [] (line.drop margin) with
    | some (key, ' ' :: value) => some (String.ofList key, String.ofList value)
    | _ => none
  else none

/-- What is in the blocks of a module, and whether a component defines its instances. -/
structure Layout where
  nodes : List Row
  materials : List Row
  instances : List Row
  wrapped : Bool
  deriving Repr, DecidableEq

/-- More rows in a block. -/
def Layout.extend (layout : Layout) (rows : List Row) : Block → Layout
  | .nodes => { layout with nodes := layout.nodes ++ rows }
  | .materials => { layout with materials := layout.materials ++ rows }
  | .instances => { layout with instances := layout.instances ++ rows }

/-- The first line of the component that defines the instances begins so. -/
def wrapperOpening : String := "export default function InstancedModel("

/-- The line that begins the markup. -/
def markupOpening : String :=
  "    <group ref=\x7bgroup\x7d \x7b...props\x7d dispose=\x7bnull\x7d>"

/-- What the next line belongs to. -/
inductive Stage
  | code
  | block (block : Block)
  | markup
  deriving Repr, DecidableEq

/-- What has been found in the lines so far. -/
structure Survey where
  stage : Stage
  layout : Layout
  deriving Repr, DecidableEq

namespace Survey

/-- Take a line outside of blocks. -/
def pass (survey : Survey) (line : List Char) : Survey :=
  if line = markupOpening.toList then { survey with stage := .markup }
  else if wrapperOpening.toList.isPrefixOf line then
    { survey with layout := { survey.layout with wrapped := true } }
  else
    match Block.all.find? fun block => line == block.opening.toList with
    | some block => { survey with stage := .block block }
    | none => survey

/-- Take a line; a block holds nothing but keys and values, and the markup has no lines. -/
def take? (survey : Survey) (line : List Char) : Option Survey :=
  match survey.stage with
  | .code => some (survey.pass line)
  | .block block =>
      if line = block.closing.toList then some { survey with stage := .code }
      else (readRow? block.margin line).map fun row =>
        { survey with layout := survey.layout.extend [row] block }
  | .markup => none

end Survey

/-- The reader: whether it is inside of a literal, its line so far, and the lines before. -/
structure Scan where
  quoting : Quoting
  line : List Char
  survey : Survey
  deriving Repr, DecidableEq

namespace Scan

/-- Take one character. -/
def take? (scan : Scan) (character : Char) : Option Scan :=
  match scan.quoting.next? '\n' character with
  | some quoting => some { scan with quoting, line := scan.line ++ [character] }
  | none => (scan.survey.take? scan.line).map fun survey => ⟨.code, [], survey⟩

/-- Take the characters of a text. -/
def run (scan : Scan) (text : List Char) : Option Scan :=
  text.foldlM take? scan

end Scan

/-- What is laid out before the markup, and what stands behind the line that begins it. -/
def scanFrom? : Scan → List Char → Option (Layout × List Char)
  | _, [] => none
  | scan, character :: rest =>
      (scan.take? character).bind fun next =>
        if next.survey.stage = .markup then some (next.survey.layout, rest)
        else scanFrom? next rest

/-- The tags of a text before the tag `last`. -/
def tagsBefore? (last : Tag) : Reader → List Char → Option (List Tag)
  | _, [] => none
  | reader, character :: rest =>
      (reader.take? character).bind fun next =>
        if next.tags.getLast? = some last then some next.tags.dropLast
        else tagsBefore? last next rest

/-- The two halves of a module that begins with its only comment. -/
def readHalves? (text : String) : Option (Layout × List Char) :=
  scanFrom? ⟨.code, [], ⟨.code, ⟨[], [], [], false⟩⟩⟩ (afterComment (text.toList.drop 2))

/-- The layout of a module. -/
def readLayout? (text : String) : Option Layout :=
  (readHalves? text).map (·.1)

/-- The elements inside the outermost element of a module. -/
def readBody? (text : String) : Option (List Element) :=
  (readHalves? text).bind fun halves =>
    (tagsBefore? (.closes (2 * (bodyDepth - 1)) "group") ⟨.line 0, []⟩ halves.2).bind
      (nest bodyDepth)

section Quotes

/-- The text begins and ends outside of literals, and there is no `stop` in it but inside of
literals. -/
def Whole (stop : Char) (text : List Char) : Prop :=
  text.foldlM (Quoting.next? stop) .code = some .code

instance (stop : Char) (text : List Char) : Decidable (Whole stop text) :=
  inferInstanceAs (Decidable (_ = _))

variable {stop : Char}

theorem whole_append
    {first second : List Char}
    (begins : Whole stop first)
    (ends : Whole stop second) :
    Whole stop (first ++ second) := by
  rw [Whole, List.foldlM_append, begins]
  exact ends

theorem whole_cons
    {character : Char}
    {rest : List Char}
    (other : character ≠ stop)
    (bare : ¬ IsDelimiter character)
    (ends : Whole stop rest) :
    Whole stop (character :: rest) := by
  rw [Whole, List.foldlM_cons, Quoting.next?, if_neg other, if_neg bare]
  exact ends

/-- Whole texts with whole text between them are whole. -/
theorem whole_intercalate
    {separator : List Char}
    (between : Whole stop separator)
    {parts : List (List Char)}
    (each : ∀ part ∈ parts, Whole stop part) :
    Whole stop (separator.intercalate parts) := by
  induction parts with
  | nil => rfl
  | cons part rest ih =>
      obtain ⟨first, others⟩ := List.forall_mem_cons.mp each
      cases rest with
      | nil => simpa [List.intercalate] using first
      | cons next more =>
          have whole := whole_append first (whole_append between (ih others))
          simpa [List.intercalate] using whole

/-- Without delimiters only `stop` itself matters. -/
theorem whole_of_bare
    {text : List Char}
    (bare : ∀ character ∈ text, character ≠ stop ∧ ¬ IsDelimiter character) :
    Whole stop text := by
  induction text with
  | nil => rfl
  | cons character rest ih =>
      obtain ⟨⟨other, plain⟩, others⟩ := List.forall_mem_cons.mp bare
      exact whole_cons other plain (ih others)

/-- A spelled text does not leave its literal. -/
theorem quoting_spelled
    {delimiter : Char}
    {text : List Char}
    (spelled : Spelled delimiter text) :
    text.foldlM (Quoting.next? stop) (.literal delimiter) = some (.literal delimiter) := by
  induction spelled with
  | nil => rfl
  | bare other unescaped _ ih =>
      rw [List.foldlM_cons, Quoting.next?, if_neg unescaped, if_neg other]
      exact ih
  | escape character _ ih =>
      rw [List.foldlM_cons, Quoting.next?, if_pos rfl]
      exact ih

/-- A literal may hold what would stop the reader outside of it. -/
theorem whole_literal
    {delimiter : Char}
    (quotes : IsDelimiter delimiter)
    (other : delimiter ≠ stop)
    {text : List Char}
    (spelled : Spelled delimiter text) :
    Whole stop (delimiter :: text ++ [delimiter]) := by
  have closes :
      [delimiter].foldlM (Quoting.next? stop) (.literal delimiter) = some .code := by
    rcases quotes with rfl | rfl <;> rfl
  rw [Whole, List.cons_append, List.foldlM_cons, Quoting.next?, if_neg other, if_pos quotes]
  show (text ++ [delimiter]).foldlM (Quoting.next? stop) (.literal delimiter) = _
  rw [List.foldlM_append, quoting_spelled spelled]
  exact closes

/-- A literal between apostrophes is whole. -/
theorem whole_quoted
    (other : Text.apostrophe ≠ stop)
    (name : String) :
    Whole stop (Text.quoted name).toList := by
  have spelled := spelled_flatMap spelled_escapedChar name.toList
  have shape :
      (Text.quoted name).toList =
        Text.apostrophe :: name.toList.flatMap Text.escapedChar ++ [Text.apostrophe] := by
    simp [Text.quoted, Text.escaped]
  rw [shape]
  exact whole_literal (.inr rfl) other spelled

/-- A word is free of delimiters. -/
theorem whole_word
    (breaks : Text.continuesIdentifier stop = false)
    {text : List Char}
    (word : IsWord text) :
    Whole stop text := by
  refine whole_of_bare fun character member => ?_
  have continues := word.continues character member
  refine ⟨?_, ?_⟩
  · rintro rfl
    rw [continues] at breaks
    cases breaks
  · rintro (rfl | rfl) <;> exact absurd continues (by decide)

/-- What a constant is made of stays on its line. -/
theorem whole_constant
    {text : List Char}
    (constant : Constant text) :
    Whole '\n' text := by
  induction constant with
  | nil => rfl
  | @sign character _ listed _ ih =>
      refine whole_cons ?_ ?_ ih
      · rintro rfl
        exact absurd listed (by decide)
      · rintro (rfl | rfl) <;> exact absurd listed (by decide)
  | @literal delimiter text rest quotes inside _ ih =>
      have other : delimiter ≠ '\n' := by
        rcases quotes with rfl | rfl <;> decide
      have whole := whole_append (whole_literal quotes other inside) ih
      rwa [List.append_assoc, List.singleton_append] at whole
  | @braces text rest _ _ inside ih =>
      exact whole_cons (by decide) (by decide)
        (whole_append inside (whole_cons (by decide) (by decide) ih))

/-- A key is whole for every mark that no key is written with. -/
theorem whole_propertyKey
    (breaks : Text.continuesIdentifier stop = false)
    (others : stop ∉ ['[', ']', Text.apostrophe])
    (name : String) :
    Whole stop (Text.propertyKey name).toList := by
  simp only [List.mem_cons, List.not_mem_nil, or_false, not_or] at others
  obtain ⟨opens, closes, quotes⟩ := others
  unfold Text.propertyKey
  split
  next identifier => exact whole_word breaks (isWord_of_isIdentifier identifier)
  next =>
    simp only [String.toList_append]
    exact whole_append
      (whole_append (whole_cons (Ne.symm opens) (by decide) rfl) (whole_quoted (Ne.symm quotes) _))
      (whole_cons (Ne.symm closes) (by decide) rfl)

/-- An access is whole within its line. -/
theorem whole_memberAccess
    (name : String) :
    Whole '\n' (Text.memberAccess name).toList := by
  unfold Text.memberAccess
  split
  next identifier =>
    rw [String.toList_append]
    exact whole_append (by decide)
      (whole_word (by decide) (isWord_of_isIdentifier identifier))
  next =>
    simp only [String.toList_append]
    exact whole_append (whole_append (by decide) (whole_quoted (by decide) _)) (by decide)

/-- A text that ends outside of literals is split off at the stop behind it. -/
theorem splitFrom?_of_foldlM
    {quoting : Quoting}
    {text : List Char}
    (reads : text.foldlM (Quoting.next? stop) quoting = some .code)
    (before rest : List Char) :
    splitFrom? stop quoting before (text ++ stop :: rest) = some (before ++ text, rest) := by
  induction text generalizing quoting before with
  | nil =>
      cases reads
      rw [List.nil_append, List.append_nil, splitFrom?, Quoting.next?, if_pos rfl]
  | cons character text ih =>
      rw [List.foldlM_cons] at reads
      cases next : quoting.next? stop character with
      | none =>
          rw [next] at reads
          cases reads
      | some after =>
          rw [next] at reads
          have later := ih reads (before ++ [character])
          rw [List.append_assoc, List.singleton_append] at later
          rw [List.cons_append, splitFrom?, next]
          exact later

/-- A line with a key, a colon and a blank is read as the key and what stands behind. -/
theorem readRow?_spelled
    {key value : String}
    (whole : Whole ':' key.toList)
    (margin : Nat) :
    readRow? margin (List.replicate margin ' ' ++ (key.toList ++ ':' :: ' ' :: value.toList)) =
      some (key, value) := by
  have blanks :
      (List.replicate margin ' ').isPrefixOf
        (List.replicate margin ' ' ++ (key.toList ++ ':' :: ' ' :: value.toList)) = true :=
    List.isPrefixOf_iff_prefix.mpr (List.prefix_append _ _)
  have rest :
      (List.replicate margin ' ' ++ (key.toList ++ ':' :: ' ' :: value.toList)).drop margin =
        key.toList ++ ':' :: ' ' :: value.toList :=
    List.drop_left' List.length_replicate
  have split := splitFrom?_of_foldlM whole [] (' ' :: value.toList)
  rw [readRow?, if_pos blanks, rest, split, List.nil_append]
  simp only [String.ofList_toList]

end Quotes

section Lines

variable {survey before middle after : Survey} {layout : Layout}

/-- Reading the text leads from the begin of a line to the begin of a line. -/
def Surveys (before : Survey) (text : String) (after : Survey) : Prop :=
  Scan.run ⟨.code, [], before⟩ text.toList = some ⟨.code, [], after⟩

/-- Two texts are scanned one after the other. -/
theorem Scan.run_append
    (scan : Scan)
    (first second : List Char) :
    scan.run (first ++ second) = (scan.run first).bind fun middle => middle.run second :=
  List.foldlM_append

theorem surveys_empty
    (survey : Survey) :
    Surveys survey "" survey :=
  rfl

/-- Two texts are surveyed one after the other. -/
theorem surveys_append
    {first second : String}
    (begins : Surveys before first middle)
    (ends : Surveys middle second after) :
    Surveys before (first ++ second) after := by
  rw [Surveys, String.toList_append, Scan.run_append, begins]
  exact ends

/-- What ends no line is gathered. -/
theorem Scan.run_foldlM
    {quoting last : Quoting}
    {text : List Char}
    (reads : text.foldlM (Quoting.next? '\n') quoting = some last)
    (line : List Char) :
    Scan.run ⟨quoting, line, survey⟩ text = some ⟨last, line ++ text, survey⟩ := by
  induction text generalizing quoting line with
  | nil =>
      cases reads
      rw [List.append_nil]
      rfl
  | cons character text ih =>
      rw [List.foldlM_cons] at reads
      cases next : quoting.next? '\n' character with
      | none =>
          rw [next] at reads
          cases reads
      | some middle =>
          rw [next] at reads
          have later := ih reads (line ++ [character])
          rw [List.append_assoc, List.singleton_append] at later
          rw [Scan.run, List.foldlM_cons, Scan.take?, next]
          exact later

/-- A line break outside of literals hands the line to the survey. -/
theorem Scan.take?_lineBreak
    (line : List Char) :
    Scan.take? ⟨.code, line, survey⟩ '\n' =
      (survey.take? line).map fun survey => ⟨.code, [], survey⟩ :=
  rfl

/-- A whole line is taken as one. -/
theorem surveys_line
    {text : String}
    {line : List Char}
    (shape : text.toList = line ++ ['\n'])
    (whole : Whole '\n' line)
    (step : before.take? line = some after) :
    Surveys before text after := by
  rw [Surveys, shape, Scan.run_append, Scan.run_foldlM whole [], Option.bind_some, Scan.run,
    List.foldlM_cons, Scan.take?_lineBreak, List.nil_append, step]
  rfl

/-- The lines that the reader heeds outside of blocks begin so. -/
def landmarks : List String :=
  [markupOpening, wrapperOpening] ++ Block.all.map Block.opening

/-- A line that the reader does not heed outside of blocks. -/
structure Ordinary (line : List Char) : Prop where
  whole : Whole '\n' line
  other : ∀ mark ∈ landmarks, ¬ mark.toList <+: line

instance (line : List Char) : Decidable (Ordinary line) :=
  @decidable_of_iff _ (Whole '\n' line ∧ ∀ mark ∈ landmarks, ¬ mark.toList <+: line)
    ⟨fun both => ⟨both.1, both.2⟩, fun ordinary => ⟨ordinary.whole, ordinary.other⟩⟩
    (@instDecidableAnd _ _ inferInstance
      (List.decidableBAll (fun mark : String => ¬ mark.toList <+: line) landmarks))

/-- No line that begins so is one that the reader heeds. -/
structure Unmarked (start : List Char) : Prop where
  ordinary : Ordinary start
  apart : ∀ mark ∈ landmarks, ¬ start <+: mark.toList

instance (start : List Char) : Decidable (Unmarked start) :=
  @decidable_of_iff _ (Ordinary start ∧ ∀ mark ∈ landmarks, ¬ start <+: mark.toList)
    ⟨fun both => ⟨both.1, both.2⟩, fun unmarked => ⟨unmarked.ordinary, unmarked.apart⟩⟩
    (@instDecidableAnd _ _ inferInstance
      (List.decidableBAll (fun mark : String => ¬ start <+: mark.toList) landmarks))

/-- A line that begins without a mark is ordinary, whatever whole text follows. -/
theorem Unmarked.append
    {start rest : List Char}
    (unmarked : Unmarked start)
    (ends : Whole '\n' rest) :
    Ordinary (start ++ rest) where
  whole := whole_append unmarked.ordinary.whole ends
  other := by
    intro mark listed begins
    rcases List.prefix_or_prefix_of_prefix begins (List.prefix_append start rest) with
      short | long
    · exact unmarked.ordinary.other mark listed short
    · exact unmarked.apart mark listed long

/-- A line that the reader does not heed changes nothing. -/
theorem surveys_ordinary
    {text : String}
    {line : List Char}
    (shape : text.toList = line ++ ['\n'])
    (ordinary : Ordinary line) :
    Surveys ⟨.code, layout⟩ text ⟨.code, layout⟩ := by
  have differs : ∀ mark ∈ landmarks, line ≠ mark.toList :=
    fun mark listed same => ordinary.other mark listed (same ▸ List.prefix_rfl)
  have blocks : (Block.all.find? fun block => line == block.opening.toList) = none :=
    List.find?_eq_none.mpr fun block listed same =>
      differs _ (List.mem_append_right _ (List.mem_map_of_mem listed)) (eq_of_beq same)
  refine surveys_line shape ordinary.whole ?_
  rw [Survey.take?, Survey.pass, if_neg (differs _ (by decide)),
    if_neg (mt List.isPrefixOf_iff_prefix.mp (ordinary.other _ (by decide))), blocks]

/-- An ordinary line outside of blocks adds nothing to the layout. -/
theorem surveys_lineOf
    {line : String}
    (ordinary : Ordinary line.toList) :
    Surveys ⟨.code, layout⟩ (line ++ "\n") ⟨.code, layout⟩ :=
  surveys_ordinary String.toList_append ordinary

/-- A text of lines that the reader does not heed. -/
theorem surveys_lines
    {text : String}
    (lines : List String)
    (shape : text = String.join (lines.map (· ++ "\n")))
    (ordinary : ∀ line ∈ lines, Ordinary line.toList) :
    Surveys ⟨.code, layout⟩ text ⟨.code, layout⟩ := by
  subst shape
  induction lines with
  | nil => exact surveys_empty _
  | cons line rest ih =>
      obtain ⟨first, others⟩ := List.forall_mem_cons.mp ordinary
      rw [List.map_cons, String.join_cons]
      exact surveys_append (surveys_lineOf first) (ih others)

/-- The opening line of a block leads into it. -/
theorem surveys_opening
    (block : Block) :
    Surveys ⟨.code, layout⟩ (block.opening ++ "\n") ⟨.block block, layout⟩ := by
  refine surveys_line String.toList_append (by cases block <;> decide) ?_
  cases block <;> rfl

/-- The closing line of a block leads out of it. -/
theorem surveys_closing
    (block : Block) :
    Surveys ⟨.block block, layout⟩ (block.closing ++ "\n") ⟨.code, layout⟩ := by
  refine surveys_line String.toList_append (by cases block <;> decide) ?_
  exact if_pos rfl

/-- Rows added twice to a block are added one after the other. -/
theorem Layout.extend_extend
    (layout : Layout)
    (first second : List Row)
    (block : Block) :
    (layout.extend first block).extend second block = layout.extend (first ++ second) block := by
  cases block <;> simp [Layout.extend]

theorem Layout.extend_nil
    (layout : Layout)
    (block : Block) :
    layout.extend [] block = layout := by
  cases block <;> simp [Layout.extend]

/-- A line of a block. -/
def rowText (block : Block) (row : Row) : String :=
  String.ofList (List.replicate block.margin ' ') ++ row.1 ++ ": " ++ row.2 ++ "\n"

/-- A row is added to the block that it stands in. -/
theorem surveys_row
    (block : Block)
    {row : Row}
    (key : Whole ':' row.1.toList)
    (line : Whole '\n' row.1.toList)
    (value : Whole '\n' row.2.toList) :
    Surveys ⟨.block block, layout⟩ (rowText block row)
      ⟨.block block, layout.extend [row] block⟩ := by
  have inner :
      ∀ rest, List.replicate block.margin ' ' ++ rest ≠ block.closing.toList := by
    intro rest same
    have outside : ¬ List.replicate block.margin ' ' <+: block.closing.toList := by
      cases block <;> decide
    exact outside (same ▸ List.prefix_append _ _)
  have blanks : Whole '\n' (List.replicate block.margin ' ') := by
    cases block <;> decide
  have shape :
      (rowText block row).toList =
        (List.replicate block.margin ' ' ++ (row.1.toList ++ ':' :: ' ' :: row.2.toList))
          ++ ['\n'] := by
    simp [rowText]
  refine surveys_line shape ?_ ?_
  · exact whole_append blanks (whole_append line
      (whole_cons (by decide) (by decide) (whole_cons (by decide) (by decide) value)))
  · exact (if_neg (inner _)).trans (congrArg (Option.map _) (readRow?_spelled key block.margin))

/-- Rows are added to their block in order. -/
theorem surveys_rows
    (block : Block)
    {rows : List Row}
    (keys : ∀ row ∈ rows, Whole ':' row.1.toList)
    (lines : ∀ row ∈ rows, Whole '\n' row.1.toList ∧ Whole '\n' row.2.toList) :
    Surveys ⟨.block block, layout⟩ (String.join (rows.map (rowText block)))
      ⟨.block block, layout.extend rows block⟩ := by
  induction rows generalizing layout with
  | nil =>
      rw [Layout.extend_nil]
      exact surveys_empty _
  | cons row rest ih =>
      obtain ⟨key, keys⟩ := List.forall_mem_cons.mp keys
      obtain ⟨⟨line, value⟩, lines⟩ := List.forall_mem_cons.mp lines
      have first : Surveys ⟨.block block, layout⟩ _ _ := surveys_row block key line value
      have whole := surveys_append first (ih keys lines)
      rw [Layout.extend_extend, List.singleton_append] at whole
      rw [List.map_cons, String.join_cons]
      exact whole

/-- The line that begins the component that defines the instances. -/
theorem surveys_wrapper
    {rest : String}
    (ends : Whole '\n' rest.toList) :
    Surveys ⟨.code, layout⟩ (wrapperOpening ++ rest ++ "\n")
      ⟨.code, { layout with wrapped := true }⟩ := by
  have shape :
      (wrapperOpening ++ rest ++ "\n").toList = (wrapperOpening.toList ++ rest.toList) ++ ['\n'] := by
    simp
  have begins : wrapperOpening.toList.isPrefixOf (wrapperOpening.toList ++ rest.toList) = true :=
    List.isPrefixOf_iff_prefix.mpr (List.prefix_append _ _)
  have other : wrapperOpening.toList ++ rest.toList ≠ markupOpening.toList := by
    intro same
    have apart : ¬ wrapperOpening.toList <+: markupOpening.toList := by
      decide
    rw [← same] at apart
    exact apart (List.prefix_append _ _)
  refine surveys_line shape (whole_append (by decide) ends) ?_
  rw [Survey.take?, Survey.pass, if_neg other, if_pos begins]

end Lines

section Handover

/-- There is no next line behind the line that begins the markup. -/
theorem stage_of_run
    {scan last : Scan}
    {text : List Char}
    (begun : scan.survey.stage = .markup)
    (reads : scan.run text = some last) :
    last.survey.stage = .markup := by
  induction text generalizing scan with
  | nil =>
      cases reads
      exact begun
  | cons character rest ih =>
      rw [Scan.run, List.foldlM_cons] at reads
      cases next : scan.quoting.next? '\n' character with
      | some quoting =>
          have taken :
              scan.take? character = some { scan with quoting, line := scan.line ++ [character] } := by
            rw [Scan.take?, next]
          rw [taken] at reads
          refine ih ?_ reads
          exact begun
      | none =>
          have stops : scan.take? character = none := by
            simp only [Scan.take?, next, Survey.take?, begun, Option.map_none]
          rw [stops] at reads
          cases reads

/-- A text before the markup is passed over. -/
theorem scanFrom?_of_run
    {scan last : Scan}
    {text : List Char}
    (reads : scan.run text = some last)
    (goes : last.survey.stage ≠ .markup)
    (rest : List Char) :
    scanFrom? scan (text ++ rest) = scanFrom? last rest := by
  induction text generalizing scan with
  | nil =>
      cases reads
      rfl
  | cons character text ih =>
      rw [Scan.run, List.foldlM_cons] at reads
      cases next : scan.take? character with
      | none =>
          rw [next] at reads
          cases reads
      | some middle =>
          rw [next] at reads
          have still : middle.survey.stage ≠ .markup := fun begun => goes (stage_of_run begun reads)
          rw [List.cons_append, scanFrom?, next, Option.bind_some, if_neg still]
          exact ih reads

/-- Behind the line that begins the markup the reader stops. -/
theorem scanFrom?_markupOpening
    (layout : Layout)
    (rest : List Char) :
    scanFrom? ⟨.code, [], ⟨.code, layout⟩⟩ (markupOpening.toList ++ '\n' :: rest) =
      some (layout, rest) := by
  have whole : Whole '\n' markupOpening.toList := by
    decide
  have line : Scan.run ⟨.code, [], ⟨.code, layout⟩⟩ markupOpening.toList = _ :=
    Scan.run_foldlM whole []
  have goes : Stage.code ≠ .markup := Stage.noConfusion
  rw [scanFrom?_of_run line goes, scanFrom?, Scan.take?_lineBreak]
  rfl

/-- A reader of markup forgets no tag. -/
theorem tags_prefix_of_take
    {reader next : Reader}
    {character : Char}
    (taken : reader.take? character = some next) :
    reader.tags <+: next.tags := by
  obtain ⟨spot, tags⟩ := reader
  cases spot <;> grind [Reader.take?, Reader.proceed?, List.prefix_append]

/-- No tag is lost on the way. -/
theorem tags_prefix_of_run
    {reader next : Reader}
    {text : List Char}
    (reads : reader.run text = some next) :
    reader.tags <+: next.tags := by
  induction text generalizing reader with
  | nil =>
      cases reads
      exact List.prefix_rfl
  | cons character rest ih =>
      rw [Reader.run, List.foldlM_cons] at reads
      cases taken : reader.take? character with
      | none =>
          rw [taken] at reads
          cases reads
      | some middle =>
          rw [taken] at reads
          exact (tags_prefix_of_take taken).trans (ih reads)

/-- A text without the tag `last` is passed over. -/
theorem tagsBefore?_of_run
    {last : Tag}
    {reader next : Reader}
    {text : List Char}
    (reads : reader.run text = some next)
    (other : last ∉ next.tags)
    (rest : List Char) :
    tagsBefore? last reader (text ++ rest) = tagsBefore? last next rest := by
  induction text generalizing reader with
  | nil =>
      cases reads
      rfl
  | cons character text ih =>
      rw [Reader.run, List.foldlM_cons] at reads
      cases taken : reader.take? character with
      | none =>
          rw [taken] at reads
          cases reads
      | some middle =>
          rw [taken] at reads
          have goes : middle.tags.getLast? ≠ some last := fun same =>
            other ((tags_prefix_of_run reads).subset (List.mem_of_getLast? same))
          rw [List.cons_append, tagsBefore?, taken, Option.bind_some, if_neg goes]
          exact ih reads

mutual

/-- The tags of an element at a depth have two blanks a level before them, or more. -/
theorem not_mem_tags
    (element : Element)
    {depth blanks : Nat}
    (outside : blanks < 2 * depth)
    (name : String) :
    .closes blanks name ∉ element.tags depth := by
  cases element with
  | void tag attributes =>
      rw [Element.tags, List.mem_singleton]
      exact Tag.noConfusion
  | element tag attributes children =>
      rw [Element.tags, List.mem_cons, List.mem_append, List.mem_singleton, not_or, not_or]
      refine ⟨Tag.noConfusion, not_mem_tagsOf children (by omega) name, fun same => ?_⟩
      obtain ⟨rfl, _⟩ := Tag.closes.inj same
      omega

/-- No element of the markup is closed with fewer blanks in front than its depth asks for. -/
theorem not_mem_tagsOf
    (elements : List Element)
    {depth blanks : Nat}
    (outside : blanks < 2 * depth)
    (name : String) :
    .closes blanks name ∉ tagsOf depth elements := by
  cases elements with
  | nil =>
      rw [tagsOf]
      exact List.not_mem_nil
  | cons element rest =>
      rw [tagsOf, List.mem_append, not_or]
      exact ⟨not_mem_tags element outside name, not_mem_tagsOf rest outside name⟩

end

end Handover

end SceneMarkup.Component
