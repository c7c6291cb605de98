import SceneMarkup.Proofs.Imports

namespace SceneMarkup.Component

/-!
# The leading comment ends where it should

Every terminator in the notes of a module is split by a blank.  A blank makes no
new terminator with what stands around it, and the notes are kept apart from each
other and from the delimiters by line breaks.  So the first terminator in a module
is the one behind all notes, and a note without a terminator stands there as it is.
-/

/-- What ends a comment. -/
def terminator : List Char :=
  ['*', '/']

/-- A note as it stands in the comment. -/
def guarded (note : String) : String :=
  String.ofList (splitTerminators note.toList)

/-- A text without its blanks. -/
def unspaced (text : String) : List Char :=
  text.toList.filter (· ≠ ' ')

section Splitting

theorem terminator_infix_cons
    {character : Char}
    {rest : List Char} :
    terminator <:+: character :: rest ↔
      character = '*' ∧ rest.head? = some '/' ∨ terminator <:+: rest := by
  rw [terminator, List.infix_cons_iff, List.cons_prefix_cons, eq_comm]
  cases rest with
  | nil => simp
  | cons next others => simp [List.cons_prefix_cons, eq_comm]

/-- No terminator is left in a text that was split. -/
theorem not_infix_splitTerminators
    (text : List Char) :
    ¬ terminator <:+: splitTerminators text := by
  fun_induction splitTerminators text with
  | case1 others ih =>
      simp only [terminator_infix_cons, List.head?_cons]
      rintro (⟨_, blank⟩ | ⟨star, _⟩ | ⟨star, _⟩ | later)
      · exact absurd blank (by decide)
      · exact absurd star (by decide)
      · exact absurd star (by decide)
      · exact ih later
  | case2 character others apart ih =>
      rw [terminator_infix_cons, head_splitTerminators]
      rintro (⟨rfl, head⟩ | later)
      · cases others with
        | nil => cases head
        | cons next rest =>
            cases head
            exact apart rest rfl rfl
      · exact ih later
  | case3 => simp [terminator]

/-- A text without a terminator is left as it is. -/
theorem splitTerminators_of_not_infix
    {text : List Char}
    (free : ¬ terminator <:+: text) :
    splitTerminators text = text := by
  fun_induction splitTerminators text with
  | case1 others => exact absurd (List.prefix_append terminator others).isInfix free
  | case2 character others _ ih =>
      rw [ih fun later => free (terminator_infix_cons.mpr (.inr later))]
  | case3 => rfl

/-- Nothing but blanks is put into a text. -/
theorem filter_splitTerminators
    (text : List Char) :
    (splitTerminators text).filter (· ≠ ' ') = text.filter (· ≠ ' ') := by
  fun_induction splitTerminators text with
  | case1 others ih => simpa using ih
  | case2 character others _ ih => rw [List.filter_cons, List.filter_cons, ih]
  | case3 => rfl

/-- No terminator reaches across a line break. -/
theorem splitTerminators_append
    (first second : List Char) :
    splitTerminators (first ++ '\n' :: second) =
      splitTerminators first ++ '\n' :: splitTerminators second := by
  have broken : ∀ rest, splitTerminators ('\n' :: rest) = '\n' :: splitTerminators rest := by
    intro rest
    rw [splitTerminators]
    rintro _ contrary
    cases contrary
  fun_induction splitTerminators first with
  | case1 others ih => rw [List.cons_append, List.cons_append, splitTerminators, ih]; rfl
  | case2 character others apart ih =>
      rw [List.cons_append, splitTerminators, ih, List.cons_append]
      rintro rest rfl same
      cases others with
      | nil => cases same
      | cons next rest =>
          cases same
          exact apart rest rfl rfl
  | case3 => exact broken second

/-- Each note is guarded on its own. -/
theorem guarded_intercalate
    (notes : List String) :
    guarded ("\n".intercalate notes) = "\n".intercalate (notes.map guarded) := by
  induction notes with
  | nil => rfl
  | cons note rest ih =>
      cases rest with
      | nil => rw [List.map_singleton, String.intercalate_singleton, String.intercalate_singleton]
      | cons next others =>
          rw [List.map_cons, List.map_cons, String.intercalate_cons_cons,
            String.intercalate_cons_cons, ← List.map_cons, ← ih]
          have line : "\n".toList = ['\n'] := by
            decide
          apply String.toList_inj.mp
          simp only [guarded, String.toList_append, String.toList_ofList, line, List.append_assoc,
            List.singleton_append, splitTerminators_append]

end Splitting

section Modules

/-- The leading comment up to its terminator. -/
def commentOpening (source : Source) : String :=
  "/*\n"
    ++ "\n".intercalate ((headerLines source.options source.labels.graph.extras).map guarded)
    ++ "\n"

/-- What stands behind the terminator of the leading comment. -/
def behindComment (source : Source) : String :=
  "\n\n" ++ source.imports ++ (if source.hasInstances then source.instancedModel else "")
    ++ source.model

theorem text_eq
    (source : Source) :
    source.text = commentOpening source ++ "*/" ++ behindComment source := by
  have comment :
      headerComment source.options source.labels.graph.extras =
        commentOpening source ++ "*/" ++ "\n" := by
    have closed : "\n*/\n" = "\n" ++ "*/" ++ "\n" := by
      decide
    rw [commentOpening, ← guarded_intercalate, headerComment, closed]
    simp only [guarded, String.append_assoc]
  have lines : "\n\n" = "\n" ++ "\n" := by
    decide
  rw [Source.text, comment, behindComment, lines]
  simp only [String.append_assoc]

/-- Between the delimiters no terminator begins, and none in front of the last one. -/
theorem not_infix_commentOpening
    (source : Source) :
    ¬ terminator <:+: (commentOpening source).toList ++ ['*'] := by
  have opened : "/*\n".toList = ['/', '*', '\n'] := by
    decide
  have line : "\n".toList = ['\n'] := by
    decide
  rw [commentOpening, ← guarded_intercalate, guarded]
  generalize ("\n".intercalate _).toList = notes
  have last : splitTerminators (notes ++ '\n' :: ['*']) = splitTerminators notes ++ ['\n', '*'] :=
    splitTerminators_append notes ['*']
  have free := not_infix_splitTerminators (notes ++ '\n' :: ['*'])
  rw [last] at free
  simp only [String.toList_append, String.toList_ofList, opened, line, List.cons_append,
    List.nil_append, List.append_assoc, terminator_infix_cons, List.head?_cons]
  rintro (⟨slash, _⟩ | ⟨_, slash⟩ | ⟨star, _⟩ | later)
  · exact absurd slash (by decide)
  · exact absurd slash (by decide)
  · exact absurd star (by decide)
  · exact free later

/--
The first terminator in a module is the one behind its notes.  Each note stands
in the comment on its own: as it is if it has no terminator, and otherwise with
nothing but blanks put in.
-/
theorem comment_ends_behind_notes
    (source : Source) :
    let notes := headerLines source.options source.labels.graph.extras
    let opening := "/*\n" ++ "\n".intercalate (notes.map guarded) ++ "\n"
    source.text = opening ++ "*/" ++ behindComment source ∧
      (∀ front back, source.text = front ++ "*/" ++ back → opening.length ≤ front.length) ∧
      ∀ note ∈ notes,
        (¬ terminator <:+: note.toList → guarded note = note) ∧
          unspaced (guarded note) = unspaced note := by
  intro notes opening
  refine ⟨text_eq source, ?_, fun note _ => ⟨fun free => ?_, ?_⟩⟩
  · intro front back text
    by_contra early
    refine not_infix_commentOpening source ?_
    -- An earlier terminator would stand in front of the last character of the one that is meant.
    have mark : "*/".toList = ['*', '/'] := by
      decide
    have whole :
        (commentOpening source).toList ++ ['*'] ++ '/' :: (behindComment source).toList =
          front.toList ++ terminator ++ back.toList := by
      have lists := congrArg String.toList ((text_eq source).symm.trans text)
      simp only [String.toList_append, mark] at lists
      simpa [terminator] using lists
    have short :
        (front.toList ++ terminator).length ≤ ((commentOpening source).toList ++ ['*']).length := by
      simp only [List.length_append, String.length_toList, terminator, List.length_cons,
        List.length_nil]
      have less : front.length < (commentOpening source).length := not_le.mp early
      omega
    have begins : front.toList ++ terminator <+: (commentOpening source).toList ++ ['*'] :=
      List.prefix_of_prefix_length_le ⟨_, rfl⟩ ⟨_, whole⟩ short
    exact (List.suffix_append front.toList terminator).isInfix.trans begins.isInfix
  · rw [guarded, splitTerminators_of_not_infix free, String.ofList_toList]
  · rw [unspaced, unspaced, guarded, String.toList_ofList, filter_splitTerminators]

/-- Notes full of terminators, some of them overlapping, and a note that ends like one. -/
example :
    headerComment
        { header := some "**// */*/" }
        (some [("*", .text "/"), ("/*", .text "* /")]) =
      "/*\nAuto-generated by: gltfjsx 0.4.0\n** // * /* /\n*: /\n/*: * /\n*/\n" := by
  decide +kernel

end Modules

end SceneMarkup.Component
