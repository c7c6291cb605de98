import SceneMarkup.Proofs.Accesses
import SceneMarkup.Proofs.Legible
import SceneMarkup.Proofs.Passages

namespace SceneMarkup.Component

open Scene Markup

/-!
# What expressions and markup mention

Constant expressions use no shared name, and an access to a table uses the
table's.  Elements use what their tags and the values of their attributes use:
the tables, a camera's component, and the instances if there are any.
-/

section Words

variable {allowed : List String}

/-- A word that is harmless where no shared name is allowed is harmless everywhere. -/
theorem Harmless.widen
    {word : String}
    (harmless : Harmless [] word) :
    Harmless allowed word :=
  ⟨harmless.free, fun shared => absurd (harmless.covered shared) List.not_mem_nil⟩

/-- A letter of a word is no mark. -/
theorem marksOf_of_continues
    {character : Char}
    (continues : Text.continuesIdentifier character = true) :
    marksOf character = [] := by
  have none :
      (['(', ')', openBrace, closeBrace, '=', ':'].all fun other =>
        !Text.continuesIdentifier other) = true := by
    decide
  rw [marksOf, if_neg]
  intro mark
  have other := List.all_eq_true.mp none character (List.contains_iff_mem.mp mark)
  rw [continues] at other
  cases other

/-- A word is read letter by letter. -/
theorem run_letters
    {word : List Char}
    (continues : ∀ character ∈ word, Text.continuesIdentifier character = true)
    (dots : Nat)
    (letters : List Char)
    (reading : Reading) :
    Cursor.run ⟨.word dots letters, reading⟩ word = ⟨.word dots (letters ++ word), reading⟩ := by
  induction word generalizing letters with
  | nil =>
      rw [List.append_nil]
      rfl
  | cons character word ih =>
      obtain ⟨first, others⟩ := List.forall_mem_cons.mp continues
      have step :
          Cursor.take ⟨.word dots letters, reading⟩ character =
            ⟨.word dots (letters ++ [character]), reading⟩ := by
        rw [Cursor.take, Place.take, if_pos first]
        rfl
      have later := ih others (letters ++ [character])
      rw [List.append_assoc, List.singleton_append] at later
      rw [Cursor.run, List.foldl_cons, step]
      exact later

/-- A word is gathered behind the dots before it. -/
theorem run_word
    {word : List Char}
    (isWord : IsWord word)
    (dots : Nat)
    (reading : Reading) :
    Cursor.run ⟨.code dots, reading⟩ word = ⟨.word dots word, reading⟩ := by
  obtain ⟨filled, continues⟩ := isWord
  cases word with
  | nil => exact absurd rfl filled
  | cons character word =>
      obtain ⟨first, others⟩ := List.forall_mem_cons.mp continues
      have step :
          Cursor.take ⟨.code dots, reading⟩ character = ⟨.word dots [character], reading⟩ := by
        rw [Cursor.take, Place.take, marksOf_of_continues first, Place.behind, if_pos first]
        rfl
      rw [Cursor.run, List.foldl_cons, step]
      exact run_letters others dots [character] reading

theorem passes_letters
    {word : List Char}
    (isWord : IsWord word)
    (dots : Nat) :
    Passes allowed (fun place => place = .code dots) word fun place => place = .word dots word := by
  rintro _ rfl
  refine ⟨.word dots word, [], rfl, covers_nil, fun reading _ => ?_⟩
  rw [Reading.withUses_nil]
  exact run_word isWord dots reading

/-- Where the word or the literal of a value may end, so that a dot may follow. -/
def Place.Whole (allowed : List String) : Place → Prop
  | .code dots => dots = 0
  | .word dots letters => dots = 1 ∨ Harmless allowed (String.ofList letters)
  | .equals => False
  | .text => False
  | .literal _ => False
  | .escape _ => False

/-- Where a whole expression has ended anything may end. -/
theorem ready_of_whole
    {place : Place}
    (whole : place.Whole allowed) :
    place.Ready allowed := by
  cases place with
  | code => trivial
  | word => exact whole
  | _ => exact whole.elim

/-- A place at rest ends an expression. -/
theorem whole_of_rests
    {place : Place}
    (rests : place.Rests) :
    place.Whole allowed := by
  cases rests
  rfl

/-- A harmless word is passed and may be a whole expression. -/
theorem passes_word
    {word : String}
    (isWord : IsWord word.toList)
    (harmless : Harmless allowed word) :
    Passes allowed Place.Rests word.toList (Place.Whole allowed) := by
  refine (passes_letters isWord 0).imp (fun _ rests => rests) ?_
  rintro _ rfl
  refine .inr ?_
  rwa [String.ofList_toList]

/-- A dot behind an expression calls for a member. -/
theorem passes_dot :
    Passes allowed (Place.Whole allowed) ['.'] fun place => place = .code 1 := by
  intro place whole
  have plain : Text.continuesIdentifier '.' = false := rfl
  obtain ⟨dots, names, covered, takes⟩ :=
    take_breaks (ready_of_whole whole) plain fun _ => by decide
  have single : ∀ reading, (Cursor.take ⟨place, reading⟩ '.').place = .code 1 := by
    cases place with
    | code dots =>
        cases whole
        exact fun _ => rfl
    | word => exact fun _ => rfl
    | _ => exact whole.elim
  refine ⟨.code 1, names, rfl, covered, fun reading steady => ?_⟩
  rw [Cursor.run, List.foldl_cons, List.foldl_nil]
  have taken := takes reading steady
  have reached := single reading
  rw [taken] at reached ⊢
  simp only at reached
  rw [reached]
  rfl

/-- A member uses nothing of its own. -/
theorem passes_member
    {name : List Char}
    (isWord : IsWord name) :
    Passes allowed (Place.Whole allowed) ('.' :: name) (Place.Whole allowed) := by
  refine passes_append passes_dot ((passes_letters isWord 1).imp (fun _ known => known) ?_)
  rintro _ rfl
  exact .inl rfl

/-- A single-quoted literal uses nothing. -/
theorem passes_quoted
    (text : String) :
    Passes allowed Place.Rests (Text.quoted text).toList Place.Rests := by
  have spelled := spelled_flatMap spelled_escapedChar text.toList
  have literal : Passes allowed _ _ _ := passes_literal (.inr rfl) spelled
  have shape :
      (Text.quoted text).toList =
        Text.apostrophe :: text.toList.flatMap Text.escapedChar ++ [Text.apostrophe] := by
    simp [Text.quoted, Text.escaped]
  rw [shape]
  refine literal.imp ?_ fun _ rests => rests
  rintro _ rfl
  exact ⟨trivial, Place.noConfusion⟩

/-- A member in brackets ends at rest. -/
theorem passes_bracketed
    (name : String) :
    Passes allowed (Place.Ready allowed) ("[" ++ Text.quoted name ++ "]").toList Place.Rests := by
  rw [String.toList_append, String.toList_append]
  have opened : Passes allowed (Place.Ready allowed) "[".toList Place.Rests :=
    passes_break (by decide)
  have closed : Passes allowed Place.Rests "]".toList Place.Rests :=
    Passes.imp (passes_break (by decide)) (fun _ rests => ready_of_rests rests) fun _ rests => rests
  exact passes_append (passes_append opened (passes_quoted name)) closed

/-- An access to a table uses the table only. -/
theorem passes_access
    {table : String}
    (isWord : IsWord table.toList)
    (harmless : Harmless allowed table)
    (name : String) :
    Passes allowed Place.Rests (table ++ Text.memberAccess name).toList (Place.Whole allowed) := by
  rw [String.toList_append]
  refine passes_append (passes_word isWord harmless) ?_
  unfold Text.memberAccess
  split
  next identifier =>
    rw [String.toList_append]
    exact passes_member (isWord_of_isIdentifier identifier)
  next =>
    exact (passes_bracketed name).imp (fun _ => ready_of_whole) fun _ => whole_of_rests

/-- A key, before its colon, uses nothing. -/
theorem passes_key
    {word : List Char}
    (isWord : IsWord word) :
    Passes allowed Place.Rests (word ++ [':']) Place.Rests := by
  rintro _ rfl
  have gathered : Passes allowed _ _ _ := passes_letters isWord 0
  obtain ⟨_, names, rfl, covered, reads⟩ := gathered _ rfl
  refine ⟨.code 0, names, rfl, covered, fun reading steady => ?_⟩
  rw [Cursor.run_append, reads reading steady]
  exact congrArg (Cursor.mk (.code 0)) ((steady.withUses names).takeMark (.inr rfl))

/-- A key of an object is passed up to its colon. -/
theorem passes_propertyKey
    (name : String) :
    Passes allowed Place.Rests (Text.propertyKey name ++ ":").toList Place.Rests := by
  rw [String.toList_append]
  unfold Text.propertyKey
  split
  next identifier => exact passes_key (isWord_of_isIdentifier identifier)
  next =>
    have bracketed : Passes allowed Place.Rests _ Place.Rests :=
      (passes_bracketed name).imp (fun _ => ready_of_rests) fun _ rests => rests
    exact passes_append bracketed.ready (passes_break (by decide))

end Words

section Constants

variable {allowed : List String}

/-- Every keyword and every shared name has a letter that is no sign. -/
theorem harmless_of_signs
    {letters : List Char}
    (signs : Signs letters) :
    Harmless allowed (String.ofList letters) := by
  have loud : ∀ word ∈ Keyword.all.map Keyword.text ++ sharedNames, ¬ Signs word.toList := by
    decide
  have quiet : Signs (String.ofList letters).toList := by
    rwa [String.toList_ofList]
  refine ⟨fun keyword member same => ?_, fun shared => ?_⟩
  · refine loud _ (List.mem_append_left _ (List.mem_map_of_mem member)) ?_
    rwa [same]
  · exact absurd quiet (loud _ (List.mem_append_right _ shared))

/-- Where signs may go on anything may end. -/
theorem ready_of_mild
    {place : Place}
    (mild : place.Mild) :
    place.Ready allowed ∧ place ≠ .equals := by
  cases place with
  | code => exact ⟨trivial, Place.noConfusion⟩
  | word _ letters => exact ⟨.inr (harmless_of_signs mild), Place.noConfusion⟩
  | _ => exact mild.elim

/-- A sign of a number is passed. -/
theorem passes_sign
    {character : Char}
    (sign : isSign character = true) :
    Passes allowed Place.Mild [character] Place.Mild := by
  cases continues : Text.continuesIdentifier character with
  | true =>
      have word : IsWord [character] :=
        ⟨List.cons_ne_nil _ _, List.forall_mem_singleton.mpr continues⟩
      have signs : Signs [character] := List.forall_mem_singleton.mpr sign
      intro place mild
      cases place with
      | code dots =>
          have gathered : Passes allowed _ _ _ := passes_letters word dots
          obtain ⟨last, names, rfl, covered, reads⟩ := gathered _ rfl
          exact ⟨.word dots [character], names, signs, covered, reads⟩
      | word dots letters =>
          have gathered : Signs (letters ++ [character]) := signs_append mild signs
          refine ⟨.word dots (letters ++ [character]), [], gathered, covers_nil,
            fun reading _ => ?_⟩
          rw [Reading.withUses_nil]
          exact run_letters word.continues dots letters reading
      | _ => exact mild.elim
  | false =>
      by_cases dot : character = '.'
      · subst dot
        intro place mild
        have ready : place.Ready allowed := (ready_of_mild mild).1
        obtain ⟨dots, names, covered, takes⟩ := take_breaks ready continues fun _ => by decide
        exact ⟨.code (dots + 1), names, trivial, covered, takes⟩
      · have none :
            (['"', Text.apostrophe, '=', '(', ')', openBrace, closeBrace].all fun other =>
              !isSign other) = true := by
          decide
        have plain : isBreak character = true := by
          rw [isBreak, continues, Bool.not_false, Bool.true_and, Bool.not_eq_true',
            List.contains_eq_mem, decide_eq_false_iff_not]
          intro member
          have others :
              character ∈ ['"', Text.apostrophe, '=', '(', ')', openBrace, closeBrace] := by
            simpa [dot] using member
          have contrary := List.all_eq_true.mp none character others
          rw [sign] at contrary
          cases contrary
        exact (passes_break plain).imp (fun _ mild => (ready_of_mild mild).1)
          fun _ => mild_of_rests

/-- Constant expressions use no shared name. -/
theorem passes_constant
    {text : List Char}
    (constant : Constant text) :
    Passes allowed Place.Mild text Place.Mild := by
  induction constant with
  | nil => exact passes_nil
  | sign listed _ ih => exact passes_append (passes_sign listed) ih
  | @literal delimiter text rest quotes inside _ ih =>
      have first : Passes allowed Place.Mild (delimiter :: text ++ [delimiter]) Place.Mild :=
        (passes_literal quotes inside).imp (fun _ => ready_of_mild) fun _ => mild_of_rests
      simpa using passes_append first ih
  | @braces text rest _ _ inside ih =>
      have within : Passes allowed Place.Rests text (Place.Ready allowed) :=
        inside.imp (fun _ => mild_of_rests) fun _ mild => (ready_of_mild mild).1
      have first : Passes allowed Place.Mild (openBrace :: text ++ [closeBrace]) Place.Mild :=
        (passes_braces within).imp (fun _ mild => (ready_of_mild mild).1) fun _ => mild_of_rests
      simpa using passes_append first ih

end Constants

section Elements

variable {allowed : List String}

/-- A value uses shared names only if they are allowed. -/
def ValueUses (allowed : List String) : AttributeValue → Prop
  | .flag => True
  | .expression content => Passes allowed Place.Rests content.toList (Place.Ready allowed)
  | .text content => '"' ∉ content.toList

/-- A heading uses shared names only if they are allowed. -/
structure HeadingUses (allowed : List String) (heading : Heading) : Prop where
  tag : Passes allowed Place.Rests heading.tag.toList (Place.Whole allowed)
  key : ∀ entry ∈ heading.attributes, IsWord entry.key.toList ∧ Harmless allowed entry.key
  value : ∀ entry ∈ heading.attributes, ValueUses allowed entry.value

/-- Characters that begin nothing follow one another. -/
theorem passes_breaks
    {text : List Char}
    (filled : text ≠ [])
    (plain : text.all isBreak = true) :
    Passes allowed (Place.Ready allowed) text Place.Rests := by
  induction text with
  | nil => exact absurd rfl filled
  | cons character rest ih =>
      rw [List.all_cons, Bool.and_eq_true] at plain
      obtain ⟨first, others⟩ := plain
      have begins : Passes allowed (Place.Ready allowed) [character] Place.Rests :=
        passes_break first
      cases rest with
      | nil => exact begins
      | cons next rest =>
          exact passes_append begins.ready (ih (List.cons_ne_nil _ _) others)

/-- An attribute with a value is passed. -/
theorem passes_written
    {key : String}
    (isWord : IsWord key.toList)
    (harmless : Harmless allowed key)
    {value : AttributeValue}
    (uses : ValueUses allowed value) :
    Passes allowed Place.Rests (value.written key).toList (Place.Ready allowed) := by
  have named : Passes allowed Place.Rests key.toList (Place.Ready allowed) :=
    (passes_word isWord harmless).imp (fun _ rests => rests) fun _ => ready_of_whole
  cases value with
  | flag => exact named
  | expression content =>
      have shape :
          (AttributeValue.written (.expression content) key).toList =
            key.toList ++ (['='] ++ (openBrace :: content.toList ++ [closeBrace])) := by
        simp [AttributeValue.written, braced, openBrace, closeBrace]
      have braces :
          Passes allowed (fun place => place = .equals)
            (openBrace :: content.toList ++ [closeBrace]) Place.Rests := by
        refine (passes_braces uses).imp ?_ fun _ rests => rests
        rintro _ rfl
        trivial
      rw [shape]
      exact passes_append named (passes_append passes_equals braces).ready
  | text content =>
      have shape :
          (AttributeValue.written (.text content) key).toList =
            key.toList ++ (['='] ++ ('"' :: content.toList ++ ['"'])) := by
        simp [AttributeValue.written]
      rw [shape]
      exact passes_append named (passes_append passes_equals (passes_text uses)).ready

/-- The attributes of an element are passed one by one. -/
theorem passes_attributes
    {attributes : List WrittenAttribute}
    (keys : ∀ entry ∈ attributes, IsWord entry.key.toList ∧ Harmless allowed entry.key)
    (values : ∀ entry ∈ attributes, ValueUses allowed entry.value) :
    Passes allowed (Place.Ready allowed) (attributesText attributes).toList
      (Place.Ready allowed) := by
  refine passes_join fun part listed => ?_
  obtain ⟨entry, member, rfl⟩ := List.mem_map.mp listed
  obtain ⟨isWord, harmless⟩ := keys entry member
  rw [String.toList_append]
  exact passes_append (passes_break (by decide))
    (passes_written isWord harmless (values entry member))

/-- The beginning of a tag, indented. -/
theorem passes_indented
    (depth : Nat)
    {bracket : String}
    (filled : bracket.toList ≠ [])
    (plain : bracket.toList.all isBreak = true) :
    Passes allowed Place.Rests (indentation depth ++ bracket).toList Place.Rests := by
  rw [String.toList_append]
  have blanks : (indentation depth).toList.all isBreak = true := by
    rw [indentation, String.toList_ofList, List.all_replicate]
    exact ite_eq_left_iff.mpr fun _ => rfl
  refine (passes_breaks (List.append_ne_nil_of_right_ne_nil _ filled) ?_).imp
    (fun _ => ready_of_rests) fun _ rests => rests
  rw [List.all_append, blanks, plain]
  rfl

/-- The tag and the attributes of an element, up to the end of the tag. -/
theorem passes_heading
    {heading : Heading}
    (uses : HeadingUses allowed heading)
    (depth : Nat)
    {bracket : String}
    (filled : bracket.toList ≠ [])
    (plain : bracket.toList.all isBreak = true) :
    Passes allowed Place.Rests
      (indentation depth ++ "<" ++ heading.tag ++ attributesText heading.attributes
        ++ bracket).toList
      Place.Rests := by
  rw [String.toList_append, String.toList_append, String.toList_append]
  have opened : Passes allowed Place.Rests (indentation depth ++ "<").toList Place.Rests :=
    passes_indented depth (by decide) (by decide)
  have tag := uses.tag.imp (fun _ rests => rests) fun _ => ready_of_whole
  have attributes := passes_attributes uses.key uses.value
  exact passes_append (passes_append (passes_append opened tag) attributes)
    (passes_breaks filled plain)

mutual

/-- An element uses what its headings use. -/
theorem passes_element
    (element : Element)
    (uses : ∀ heading ∈ element.headings, HeadingUses allowed heading)
    (depth : Nat) :
    Passes allowed Place.Rests (element.text depth).toList Place.Rests := by
  cases element with
  | void tag attributes =>
    rw [Element.headings] at uses
    rw [Element.text]
    exact passes_heading (List.forall_mem_singleton.mp uses) depth (by decide) (by decide)
  | element tag attributes children =>
    rw [Element.headings] at uses
    obtain ⟨own, others⟩ := List.forall_mem_cons.mp uses
    rw [Element.text]
    have opening := passes_heading own depth (show ">\n".toList ≠ [] by decide) (by decide)
    have inside := passes_elements children others (depth + 1)
    have closing : Passes allowed Place.Rests (indentation depth ++ "</").toList Place.Rests :=
      passes_indented depth (by decide) (by decide)
    have named := own.tag.imp (fun _ rests => rests) fun _ => ready_of_whole
    have ended : Passes allowed (Place.Ready allowed) ">\n".toList Place.Rests :=
      passes_breaks (by decide) (by decide)
    have whole := passes_append (passes_append opening inside)
      (passes_append (passes_append closing named) ended)
    simpa only [String.toList_append, List.append_assoc] using whole

/-- Markup is passed at any depth, if all its headings may be written. -/
theorem passes_elements
    (elements : List Element)
    (uses : ∀ heading ∈ headingsOf elements, HeadingUses allowed heading)
    (depth : Nat) :
    Passes allowed Place.Rests (elementsText depth elements).toList Place.Rests := by
  cases elements with
  | nil =>
      rw [elementsText]
      exact passes_nil
  | cons element rest =>
      rw [headingsOf] at uses
      obtain ⟨first, others⟩ := List.forall_mem_append.mp uses
      rw [elementsText, String.toList_append]
      exact passes_append (passes_element element first depth) (passes_elements rest others depth)

end

end Elements

section Headings

variable {allowed : List String} {labels : Labels} {id : NodeId}

/-- The access of a node is passed where the nodes are known. -/
theorem passes_nodeExpression
    (nodes : "nodes" ∈ allowed)
    (name : String) :
    Passes allowed Place.Rests (Scene.nodeExpression name).toList (Place.Whole allowed) :=
  passes_access isWord_nodes ⟨by decide, fun _ => nodes⟩ name

/-- A property of an expression is passed. -/
theorem passes_property
    {expression property : String}
    (reaches : Passes allowed Place.Rests expression.toList (Place.Whole allowed))
    (listed : property ∈ NodeContext.ownProperties) :
    Passes allowed Place.Rests (expression ++ property).toList (Place.Ready allowed) := by
  have all :
      ∀ property ∈ NodeContext.ownProperties,
        property.toList = '.' :: property.toList.tail ∧ IsWord property.toList.tail := by
    decide
  obtain ⟨shape, isWord⟩ := all property listed
  rw [String.toList_append, shape]
  exact (passes_append reaches (passes_member isWord)).imp (fun _ rests => rests)
    fun _ => ready_of_whole

/-- Three constants in brackets are passed. -/
theorem passes_tripleText
    {x y z : String}
    (first : Passes allowed Place.Rests x.toList (Place.Ready allowed))
    (second : Passes allowed Place.Rests y.toList (Place.Ready allowed))
    (third : Passes allowed Place.Rests z.toList (Place.Ready allowed)) :
    Passes allowed Place.Rests (tripleText x y z).toList (Place.Ready allowed) := by
  have opened : Passes allowed Place.Rests "[".toList Place.Rests :=
    (passes_breaks (by decide) (by decide)).imp (fun _ => ready_of_rests) fun _ rests => rests
  have comma : Passes allowed (Place.Ready allowed) ", ".toList Place.Rests :=
    passes_breaks (by decide) (by decide)
  have closed : Passes allowed (Place.Ready allowed) "]".toList Place.Rests :=
    passes_breaks (by decide) (by decide)
  unfold tripleText
  simp only [String.toList_append]
  exact (passes_append (passes_append (passes_append (passes_append (passes_append
    (passes_append opened first) comma) second) comma) third) closed).ready

/-- A constant is passed. -/
theorem passes_constantText
    {text : List Char}
    (constant : Constant text) :
    Passes allowed Place.Rests text (Place.Ready allowed) :=
  (passes_constant constant).imp (fun _ => mild_of_rests) fun _ mild => (ready_of_mild mild).1

/-- The values of a node use its own expression and the materials, no other shared name. -/
theorem valueUses_of_tells
    {context : NodeContext}
    (reaches : Passes allowed Place.Rests context.expression.toList (Place.Whole allowed))
    (materials : "materials" ∈ allowed)
    {value : AttributeValue}
    (told : context.Tells value) :
    ValueUses allowed value := by
  cases told with
  | flag => trivial
  | text unquoted => exact unquoted
  | constant constant => exact passes_constantText constant
  | property _ listed => exact passes_property reaches listed
  | arguments _ count =>
      exact passes_tripleText (passes_property reaches (by decide))
        (passes_property reaches (by decide))
        (passes_constantText (constant_of_signs (signs_toString count)))
  | material _ _ =>
      exact (passes_access isWord_materials ⟨by decide, fun _ => materials⟩ _).imp
        (fun _ rests => rests) fun _ => ready_of_whole

/-- A name uses no shared name. -/
theorem valueUses_nameValue
    (name : String) :
    ValueUses allowed (nameValue name) := by
  unfold nameValue
  split
  next => exact passes_constantText (constant_quotedText name)
  next unquoted => simpa [ValueUses] using unquoted

/-- The key of an attribute is a harmless word. -/
theorem key_harmless
    (key : AttributeKey) :
    IsWord key.name.toList ∧ Harmless [] key.name := by
  cases key <;> decide

/-- The components that stand for cameras. -/
def cameraTags : List String :=
  ["PerspectiveCamera", "OrthographicCamera"]

/-- The tag of a kind is a word and no keyword, and only the cameras' tags are shared names. -/
theorem word_tagOf
    (kind : NodeKind) :
    IsWord (tagOf kind).toList ∧ (∀ keyword ∈ Keyword.all, keyword.text ≠ tagOf kind) ∧
      (tagOf kind ∈ sharedNames → tagOf kind ∈ cameraTags) := by
  have all :
      ∀ name ∈ typeNames,
        IsWord (tagOfTypeName name).toList ∧
          (∀ keyword ∈ Keyword.all, keyword.text ≠ tagOfTypeName name) ∧
          (tagOfTypeName name ∈ sharedNames → tagOfTypeName name ∈ cameraTags) := by
    decide
  exact all _ (typeName_mem kind)

/-- The tag of a node uses the instances or a camera, each only where it is known. -/
theorem passes_tagAt
    (named : ∀ pair ∈ labels.index.pairs, IsWord pair.name.toList)
    (instances :
      labels.options.instancing = true → labels.index.pairs ≠ [] → "instances" ∈ allowed)
    (cameras : tagAt labels id ∈ cameraTags → tagAt labels id ∈ allowed) :
    Passes allowed Place.Rests (tagAt labels id).toList (Place.Whole allowed) := by
  cases drawn : labels.sharedPair? id with
  | some pair =>
      obtain ⟨instancing, listed⟩ := listed_of_sharedPair drawn
      have harmless : Harmless allowed "instances" :=
        ⟨by decide, fun _ => instances instancing (List.ne_nil_of_mem listed)⟩
      have shape :
          (tagAt labels id).toList = "instances".toList ++ '.' :: pair.name.toList := by
        rw [tagAt, drawn, String.toList_append]
        rfl
      rw [shape]
      exact passes_append (passes_word (by decide) harmless) (passes_member (named pair listed))
  | none =>
      have plain : tagAt labels id = tagOf (labels.graph.node id).kind := by
        rw [tagAt, drawn]
      obtain ⟨isWord, free, shared⟩ := word_tagOf (labels.graph.node id).kind
      rw [plain] at cameras ⊢
      exact passes_word isWord ⟨free, fun listed => cameras (shared listed)⟩

/-- The heading of a node uses the tables, and what its tag uses. -/
theorem headingUses_of_headingAt
    (nodes : "nodes" ∈ allowed)
    (materials : "materials" ∈ allowed)
    (named : ∀ pair ∈ labels.index.pairs, IsWord pair.name.toList)
    (instances :
      labels.options.instancing = true → labels.index.pairs ≠ [] → "instances" ∈ allowed)
    {transform : Transform}
    {heading : Heading}
    (own : headingAt labels id transform = .ok heading)
    (cameras : heading.tag ∈ cameraTags → heading.tag ∈ allowed) :
    HeadingUses allowed heading := by
  have reaches :
      Passes allowed Place.Rests (NodeContext.ofLabels labels id).expression.toList
        (Place.Whole allowed) :=
    passes_nodeExpression nodes (labels.name id)
  cases heads_of_headingAt own with
  | handle bone =>
      have key : IsWord "object".toList ∧ Harmless [] "object" := by
        decide
      have tag : IsWord "primitive".toList ∧ Harmless [] "primitive" := by
        decide
      have value : ValueUses allowed (.expression (labels.nodeExpression id)) :=
        reaches.imp (fun _ rests => rests) fun _ => ready_of_whole
      exact ⟨passes_word tag.1 tag.2.widen,
        List.forall_mem_singleton.mpr ⟨key.1, key.2.widen⟩, List.forall_mem_singleton.mpr value⟩
  | element other printed =>
      have name : IsWord "name".toList ∧ Harmless [] "name" := by
        decide
      refine ⟨passes_tagAt named instances cameras, ?_, ?_⟩
      · refine List.forall_mem_append.mpr ⟨fun entry member => ?_, fun entry member => ?_⟩
        · rw [eq_of_mem_nameAttributes member]
          exact ⟨name.1, name.2.widen⟩
        · obtain ⟨source, _, rfl⟩ := List.mem_map.mp member
          exact ⟨(key_harmless source.key).1, (key_harmless source.key).2.widen⟩
      · refine List.forall_mem_append.mpr ⟨fun entry member => ?_, fun entry member => ?_⟩
        · rw [eq_of_mem_nameAttributes member]
          exact valueUses_nameValue _
        · obtain ⟨source, listed, rfl⟩ := List.mem_map.mp member
          exact valueUses_of_tells reaches materials (tells_attributes printed source listed)

end Headings

end SceneMarkup.Component
