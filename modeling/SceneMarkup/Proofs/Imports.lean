import SceneMarkup.Proofs.Declarations
import SceneMarkup.Proofs.Functions

namespace SceneMarkup.Component

open Scene Markup

/-!
# What a module imports and declares

The lines before the functions import names and, in a typed module, declare the
types of the tables and of the actions.
-/

section Imports

/-- Reading the text imports names and declares types, and what it uses is allowed. -/
def Supplies (allowed imported declared : List String) (text : String) : Prop :=
  ∃ names, Covers allowed names ∧
    ∀ imports types uses finished,
      Cursor.run ⟨.code 0, outside 0 imports types uses finished⟩ text.toList =
        ⟨.code 0, outside 0 (imported ++ imports) (declared ++ types) (names ++ uses) finished⟩

variable {allowed : List String}

theorem supplies_nil :
    Supplies allowed [] [] "" :=
  ⟨[], covers_nil, fun _ _ _ _ => rfl⟩

/-- Two texts supply what the first and then what the second supplies. -/
theorem supplies_append
    {imported declared others types : List String}
    {first second : String}
    (before : Supplies allowed imported declared first)
    (after : Supplies allowed others types second) :
    Supplies allowed (others ++ imported) (types ++ declared) (first ++ second) := by
  obtain ⟨names, covered, reads⟩ := before
  obtain ⟨later, laterCovered, readsOn⟩ := after
  refine ⟨later ++ names, covers_append laterCovered covered, ?_⟩
  intro imports types uses finished
  rw [String.toList_append, Cursor.run_append, reads, readsOn, List.append_assoc,
    List.append_assoc, List.append_assoc]

/-- What a text needs of few names it needs of more. -/
theorem Supplies.mono
    {few imported declared : List String}
    {text : String}
    (supplies : Supplies few imported declared text)
    (known : ∀ name ∈ few, name ∈ allowed) :
    Supplies allowed imported declared text := by
  obtain ⟨names, covered, reads⟩ := supplies
  exact ⟨names, covered.mono known, reads⟩

/-- A passage supplies nothing. -/
theorem supplies_of_passes
    {text : String}
    (passes : Passes allowed Place.Rests text.toList Place.Rests) :
    Supplies allowed [] [] text := by
  obtain ⟨_, names, rfl, covered, reads⟩ := passes (.code 0) rfl
  exact ⟨names, covered, fun imports types uses finished => reads _ ⟨rfl, .inr rfl⟩⟩

/-- What the reader knows between the braces of an import. -/
def importing (imports types uses : List String) (finished : List Scope) : Reading :=
  ⟨.imported, 1, imports, types, ⟨[], uses⟩, none, finished⟩

variable {types uses : List String} {finished : List Scope}

/-- An imported name ends at a comma or a blank. -/
theorem run_imported
    {name : String}
    (isWord : IsWord name.toList)
    (free : ∀ keyword ∈ Keyword.all, keyword.text ≠ name)
    {character : Char}
    (ends : character = ',' ∨ character = ' ')
    (imports : List String) :
    Cursor.run ⟨.code 0, importing imports types uses finished⟩ (name.toList ++ [character]) =
      ⟨.code 0, importing (name :: imports) types uses finished⟩ := by
  have breaks :
      ∀ reading, Cursor.take ⟨.word 0 name.toList, reading⟩ character =
        ⟨.code 0, reading.take (.ofWord (String.ofList name.toList))⟩ := by
    rcases ends with rfl | rfl <;> exact fun _ => rfl
  rw [Cursor.run_append, run_word isWord, Cursor.run, List.foldl_cons, breaks,
    String.ofList_toList, ofWord_of_free free]
  rfl

/-- A list of imported names. -/
theorem run_listed
    {names : List String}
    (words :
      ∀ name ∈ names, IsWord name.toList ∧ ∀ keyword ∈ Keyword.all, keyword.text ≠ name)
    (imports : List String) :
    Cursor.run ⟨.code 0, importing imports types uses finished⟩
        ((", ".intercalate names).toList ++ [' ']) =
      ⟨.code 0, importing (names.reverse ++ imports) types uses finished⟩ := by
  induction names generalizing imports with
  | nil => rfl
  | cons name rest ih =>
      obtain ⟨⟨isWord, free⟩, others⟩ := List.forall_mem_cons.mp words
      cases rest with
      | nil =>
          have shape : (", ".intercalate [name]).toList = name.toList := by
            simp
          rw [shape]
          exact run_imported isWord free (.inr rfl) imports
      | cons next more =>
          have shape :
              (", ".intercalate (name :: next :: more)).toList ++ [' '] =
                (name.toList ++ [','])
                  ++ ([' '] ++ ((", ".intercalate (next :: more)).toList ++ [' '])) := by
            simp [String.toList_intercalate, List.intercalate]
          have blank :
              ∀ reading, Cursor.run ⟨.code 0, reading⟩ [' '] = ⟨.code 0, reading⟩ :=
            fun _ => rfl
          have order :
              (next :: more).reverse ++ name :: imports =
                (name :: next :: more).reverse ++ imports := by
            simp
          rw [shape, Cursor.run_append, run_imported isWord free (.inl rfl), Cursor.run_append,
            blank, ih others, order]

/-- The name of a kind's type is a word. -/
theorem word_typeName
    (kind : NodeKind) :
    IsWord kind.typeName.toList := by
  have all : ∀ name ∈ typeNames, IsWord name.toList := by
    decide
  exact all _ (typeName_mem kind)

/-- The name of a material's type is a word. -/
theorem word_materialTypeName
    (kind : MaterialKind) :
    IsWord kind.typeName.toList := by
  cases kind <;> decide

/-- The lines that declare the entries of a table. -/
theorem passes_declarations
    {entries : List (String × String)}
    (classes : ∀ entry ∈ entries, IsWord entry.2.toList)
    (three : "THREE" ∈ allowed) :
    Passes allowed Place.Rests (declarations entries).toList Place.Rests := by
  refine passes_join fun part listed => ?_
  obtain ⟨entry, member, rfl⟩ := List.mem_map.mp listed
  have shape :
      ("    " ++ Text.propertyKey entry.1 ++ ": THREE." ++ entry.2 ++ "\n").toList =
        "    ".toList ++ ((Text.propertyKey entry.1 ++ ":").toList
          ++ (" ".toList ++ ("THREE".toList ++ (('.' :: entry.2.toList) ++ "\n".toList)))) := by
    simp
  have blanks : Passes allowed (Place.Ready allowed) "    ".toList Place.Rests :=
    passes_breaks (by decide) (by decide)
  have blank : Passes allowed (Place.Ready allowed) " ".toList Place.Rests :=
    passes_breaks (by decide) (by decide)
  have ended : Passes allowed (Place.Ready allowed) "\n".toList Place.Rests :=
    passes_breaks (by decide) (by decide)
  have library : Passes allowed Place.Rests "THREE".toList (Place.Whole allowed) :=
    passes_word (by decide) ⟨by decide, fun _ => three⟩
  have type : Passes allowed Place.Rests _ (Place.Ready allowed) :=
    (passes_append library (passes_member (classes entry member))).imp (fun _ rests => rests)
      fun _ => ready_of_whole
  rw [shape, ← List.append_assoc "THREE".toList]
  exact (passes_append blanks (passes_append (passes_propertyKey entry.1).ready
    (passes_append blank (passes_append type ended)))).imp (fun _ => ready_of_rests)
      fun _ rests => rests

/-- What a module imports, the latest first. -/
def importedNames (source : Source) : List String :=
  (if source.options.types then ["GLTF"] else []) ++ source.libraryNames.reverse
    ++ (if source.hasInstances then ["useMemo", "useRef", "React"] else ["useRef", "React"])
    ++ (if source.options.types then ["THREE", "as"] else [])

/-- The types that a module declares, the latest first. -/
def declaredTypes (source : Source) : List String :=
  if source.options.types then
    (if source.labels.animated then ["GLTFActions", "ActionName"] else []) ++ ["GLTFResult"]
  else []

/-- What is taken from the component library are words, and no keywords. -/
theorem words_libraryNames
    (source : Source) :
    ∀ name ∈ source.libraryNames,
      IsWord name.toList ∧ ∀ keyword ∈ Keyword.all, keyword.text ≠ name := by
  have cameras :
      ∀ name ∈ ["PerspectiveCamera", "OrthographicCamera"],
        IsWord name.toList ∧ ∀ keyword ∈ Keyword.all, keyword.text ≠ name := by
    decide
  unfold Source.libraryNames
  refine List.forall_mem_append.mpr ⟨List.forall_mem_append.mpr
    ⟨List.forall_mem_append.mpr ⟨by decide, ?_⟩, ?_⟩, ?_⟩
  · split <;> decide
  · exact fun name member => cameras name (List.mem_filter.mp member).1
  · split <;> decide

/-- The import line of the library imports its names. -/
theorem supplies_libraryNames
    (source : Source) :
    Supplies [] source.libraryNames.reverse []
      ("import \x7b " ++ ", ".intercalate source.libraryNames
        ++ " \x7d from '@react-three/drei'\n") := by
  have shape :
      ("import \x7b " ++ ", ".intercalate source.libraryNames
          ++ " \x7d from '@react-three/drei'\n").toList =
        "import \x7b ".toList ++ (((", ".intercalate source.libraryNames).toList ++ [' '])
          ++ "\x7d from '@react-three/drei'\n".toList) := by
    simp
  refine ⟨[], covers_nil, fun imports types uses finished => ?_⟩
  have opened :
      Cursor.run ⟨.code 0, outside 0 imports types uses finished⟩ "import \x7b ".toList =
        ⟨.code 0, importing imports types uses finished⟩ := by
    cbv
  have closed :
      ∀ imports, Cursor.run ⟨.code 0, importing imports types uses finished⟩
          "\x7d from '@react-three/drei'\n".toList =
        ⟨.code 0, outside 0 imports types uses finished⟩ :=
    fun _ => by cbv
  rw [shape, Cursor.run_append, opened, Cursor.run_append, run_listed (words_libraryNames source), closed]
  rfl

/-- The types of the animations declare two types where there are clips. -/
theorem supplies_actionTypes
    (clips : List Clip) :
    Supplies ["THREE"] [] (if clips.isEmpty then [] else ["GLTFActions", "ActionName"])
      (actionTypes clips) := by
  unfold actionTypes
  split
  next => exact supplies_nil
  next =>
    have bar : Passes ["THREE"] Place.Mild " | ".toList Place.Mild :=
      (passes_breaks (by decide) (by decide)).imp (fun _ mild => (ready_of_mild mild).1)
        fun _ => mild_of_rests
    have clip : ∀ part ∈ clips.map fun clip => Json.quotedText clip.name,
        Passes ["THREE"] Place.Mild part.toList Place.Mild := by
      intro part member
      obtain ⟨clip, _, rfl⟩ := List.mem_map.mp member
      exact passes_constant (constant_quotedText clip.name)
    have ended : Passes ["THREE"] (Place.Ready ["THREE"]) "\n".toList Place.Rests :=
      passes_breaks (by decide) (by decide)
    have names :
        Supplies ["THREE"] [] []
          (" | ".intercalate (clips.map fun clip => Json.quotedText clip.name) ++ "\n") := by
      refine supplies_of_passes ?_
      rw [String.toList_append]
      exact passes_append ((passes_intercalate bar clip).imp (fun _ => mild_of_rests)
        fun _ mild => (ready_of_mild mild).1) ended
    have opened : Supplies ["THREE"] [] ["ActionName"] "\ntype ActionName = " :=
      ⟨[], by decide, fun _ _ _ _ => by cbv⟩
    have closed :
        Supplies ["THREE"] [] ["GLTFActions"]
          "type GLTFActions = Record<ActionName, THREE.AnimationAction>\n" :=
      ⟨["THREE", "ActionName", "Record"], by decide, fun _ _ _ _ => by cbv⟩
    have split :
        "\ntype GLTFActions = Record<ActionName, THREE.AnimationAction>\n" =
          "\n" ++ "type GLTFActions = Record<ActionName, THREE.AnimationAction>\n" := by
      decide
    have whole := supplies_append opened (supplies_append names closed)
    rw [split]
    simp only [String.append_assoc] at whole ⊢
    exact whole

/-- What is declared of nodes is a class. -/
theorem words_declaredNodes
    (labels : Labels) :
    ∀ entry ∈ declaredNodes labels, IsWord entry.2.toList := by
  intro entry listed
  have chosen := (firstOfEachKey_sublist _).subset listed
  obtain ⟨id, _, rfl⟩ := List.mem_map.mp chosen
  exact word_typeName _

/-- What is declared of materials is a class. -/
theorem words_declaredMaterials
    (graph : SceneGraph) :
    ∀ entry ∈ declaredMaterials graph, IsWord entry.2.toList := by
  intro entry listed
  have chosen := (firstOfEachKey_sublist _).subset listed
  obtain ⟨material, _, rfl⟩ := List.mem_map.mp chosen
  exact word_materialTypeName _

/-- The declarations of nodes use nothing but the library of their types. -/
theorem passes_declaredNodes
    (labels : Labels)
    (three : "THREE" ∈ allowed) :
    Passes allowed Place.Rests (declarations (declaredNodes labels)).toList Place.Rests :=
  passes_declarations (words_declaredNodes labels) three

/-- The declarations of materials use nothing but the library of their types. -/
theorem passes_declaredMaterials
    (graph : SceneGraph)
    (three : "THREE" ∈ allowed) :
    Passes allowed Place.Rests (declarations (declaredMaterials graph)).toList Place.Rests :=
  passes_declarations (words_declaredMaterials graph) three

/-- The type of the tables. -/
theorem supplies_tables
    (labels : Labels) :
    Supplies ["THREE", "GLTF"] [] ["GLTFResult"]
      ("type GLTFResult = GLTF & \x7b\n  nodes: \x7b\n" ++ declarations (declaredNodes labels)
        ++ "  \x7d\n  materials: \x7b\n" ++ declarations (declaredMaterials labels.graph)
        ++ "  \x7d\n\x7d\n") := by
  have three : "THREE" ∈ ["THREE", "GLTF"] := by
    decide
  obtain ⟨_, first, rfl, firstCovered, firstReads⟩ :=
    passes_declaredNodes labels three (.code 0) rfl
  obtain ⟨_, second, rfl, secondCovered, secondReads⟩ :=
    passes_declaredMaterials labels.graph three (.code 0) rfl
  refine ⟨second ++ (first ++ ["GLTF"]),
    covers_append secondCovered (covers_append firstCovered (by decide)), ?_⟩
  intro imports types uses finished
  have opened :
      Cursor.run ⟨.code 0, outside 0 imports types uses finished⟩
          "type GLTFResult = GLTF & \x7b\n  nodes: \x7b\n".toList =
        ⟨.code 0, outside 2 imports ("GLTFResult" :: types) ("GLTF" :: uses) finished⟩ := by
    cbv
  have between :
      ∀ types uses, Cursor.run ⟨.code 0, outside 2 imports types uses finished⟩
          "  \x7d\n  materials: \x7b\n".toList =
        ⟨.code 0, outside 2 imports types uses finished⟩ :=
    fun _ _ => by cbv
  have closed :
      ∀ types uses, Cursor.run ⟨.code 0, outside 2 imports types uses finished⟩
          "  \x7d\n\x7d\n".toList =
        ⟨.code 0, outside 0 imports types uses finished⟩ :=
    fun _ _ => by cbv
  have used :
      ∀ types uses names, (outside 2 imports types uses finished).withUses names =
        outside 2 imports types (names ++ uses) finished :=
    fun _ _ _ => rfl
  have steady : ∀ types uses, (outside 2 imports types uses finished).Steady :=
    fun _ _ => ⟨rfl, .inr rfl⟩
  rw [String.toList_append, String.toList_append, String.toList_append, String.toList_append,
    Cursor.run_append, Cursor.run_append, Cursor.run_append, Cursor.run_append, opened,
    firstReads _ (steady _ _), used, between, secondReads _ (steady _ _), used, closed,
    List.append_assoc, List.append_assoc]
  rfl

/-- The types of an asset. -/
theorem supplies_resultType
    (labels : Labels) :
    Supplies ["THREE", "GLTF"] []
      ((if labels.animated then ["GLTFActions", "ActionName"] else []) ++ ["GLTFResult"])
      (resultType labels) := by
  have three : ∀ name ∈ ["THREE"], name ∈ ["THREE", "GLTF"] := by
    decide
  have actions :
      Supplies ["THREE", "GLTF"] [] (if labels.animated then ["GLTFActions", "ActionName"] else [])
        (actionTypes labels.graph.clips) := by
    have own := (supplies_actionTypes labels.graph.clips).mono three
    unfold Labels.animated
    cases empty : labels.graph.clips.isEmpty <;> simpa [empty] using own
  exact supplies_append (supplies_tables labels) actions

/-- What comes before the functions. -/
theorem supplies_imports
    (source : Source)
    (libraries : source.options.types = true → ∀ name ∈ ["THREE", "GLTF"], name ∈ allowed) :
    Supplies allowed (importedNames source) (declaredTypes source) source.imports := by
  have three :
      Supplies allowed (if source.options.types then ["THREE", "as"] else []) []
        (if source.options.types then "import * as THREE from 'three'\n" else "") := by
    cases source.options.types with
    | true => exact ⟨[], covers_nil, fun _ _ _ _ => by cbv⟩
    | false => exact supplies_nil
  have react :
      Supplies allowed
        (if source.hasInstances then ["useMemo", "useRef", "React"] else ["useRef", "React"]) []
        (if source.hasInstances then "import React, \x7b useRef, useMemo \x7d from 'react'\n"
          else "import React, \x7b useRef \x7d from 'react'\n") := by
    cases source.hasInstances with
    | true => exact ⟨[], covers_nil, fun _ _ _ _ => by cbv⟩
    | false => exact ⟨[], covers_nil, fun _ _ _ _ => by cbv⟩
  have library : Supplies allowed source.libraryNames.reverse [] _ :=
    (supplies_libraryNames source).mono (List.forall_mem_nil _)
  have result :
      Supplies allowed (if source.options.types then ["GLTF"] else []) (declaredTypes source)
        (if source.options.types then
          "import \x7b GLTF \x7d from 'three-stdlib'\n\n" ++ resultType source.labels
        else "") := by
    unfold declaredTypes
    cases typed : source.options.types with
    | true =>
        have line :
            Supplies allowed ["GLTF"] [] "import \x7b GLTF \x7d from 'three-stdlib'\n\n" :=
          ⟨[], covers_nil, fun _ _ _ _ => by cbv⟩
        have whole :=
          supplies_append line ((supplies_resultType source.labels).mono (libraries typed))
        rw [List.append_nil] at whole
        exact whole
    | false => exact supplies_nil
  have whole := supplies_append three (supplies_append react (supplies_append library result))
  rw [List.append_nil, List.append_nil, List.append_nil] at whole
  unfold Source.imports importedNames
  simp only [String.append_assoc] at whole ⊢
  exact whole

end Imports

section Comment

/-- The leading comment holds its notes with every terminator split. -/
theorem toList_headerComment
    (options : Options)
    (extras : Option Json.Members) :
    ∃ notes,
      (headerComment options extras).toList =
        '/' :: '*' :: '\n' :: (splitTerminators notes ++ ['\n', '*', '/', '\n']) := by
  have opened : "/*\n".toList = ['/', '*', '\n'] := by
    decide
  have closed : "\n*/\n".toList = ['\n', '*', '/', '\n'] := by
    decide
  refine ⟨("\n".intercalate (headerLines options extras)).toList, ?_⟩
  unfold headerComment
  rw [String.toList_append, String.toList_append, opened, closed, String.toList_ofList]
  rfl

/-- Splitting terminators keeps the first character. -/
theorem head_splitTerminators
    (text : List Char) :
    (splitTerminators text).head? = text.head? := by
  unfold splitTerminators
  split <;> rfl

/-- A character that does not begin the terminator is part of the comment. -/
theorem afterComment_cons
    {character : Char}
    {rest : List Char}
    (goes : character = '*' → rest.head? ≠ some '/') :
    afterComment (character :: rest) = afterComment rest := by
  rw [afterComment]
  rintro others rfl rfl
  exact goes rfl rfl

/-- The comment ends where it is ended, whatever it holds. -/
theorem afterComment_splitTerminators
    (text rest : List Char) :
    afterComment (splitTerminators text ++ '\n' :: '*' :: '/' :: rest) = rest := by
  fun_induction splitTerminators text with
  | case1 others ih =>
      have blank : ∀ rest : List Char, (' ' :: rest).head? ≠ some '/' := by
        intro rest
        rw [List.head?_cons]
        decide
      have other : ∀ character : Char, character ≠ '*' → character = '*' → False :=
        fun _ differs same => differs same
      rw [List.cons_append, List.cons_append, List.cons_append,
        afterComment_cons fun _ => blank _,
        afterComment_cons fun same => (other ' ' (by decide) same).elim,
        afterComment_cons fun same => (other '/' (by decide) same).elim, ih]
  | case2 character others apart ih =>
      rw [List.cons_append, afterComment_cons, ih]
      rintro rfl head
      cases others with
      | nil => cases head
      | cons next others =>
          rw [List.head?_append, head_splitTerminators, List.head?_cons, Option.some_or] at head
          cases head
          exact apart others rfl rfl
  | case3 => rfl

end Comment

end SceneMarkup.Component
