import SceneMarkup.Proofs.Bindings
import SceneMarkup.Proofs.Instances

namespace SceneMarkup.Markup

open Scene

/-!
# Imports that are used

Cameras are imported when the text of the markup holds the name of their class.
Markup holds a word of letters only where a tag, a key or a value does, since
everything else that is written between these is no letter.  So a camera is
imported for its element, and also for a name or any other text that holds the
word.  What instances and clips need is imported if and only if there are some.
-/

/-- The content of a value, without what it is enclosed in. -/
def AttributeValue.content : AttributeValue → String
  | .flag => ""
  | .expression inside => inside
  | .text inside => inside

/-- A word of letters, which no other character can be part of. -/
structure Lettered (word : List Char) : Prop where
  filled : word ≠ []
  letters : ∀ letter ∈ word, letter.isAlpha = true

/-- A word that stands in the tag, in a key or in a value of an element. -/
def Heading.Holds (heading : Heading) (word : List Char) : Prop :=
  word <:+: heading.tag.toList ∨
    ∃ item ∈ heading.attributes,
      word <:+: item.key.toList ∨ word <:+: item.value.content.toList

section Words

variable {word : List Char}

/-- A word of letters is not part of nothing. -/
theorem Lettered.not_infix_nil
    (lettered : Lettered word) :
    ¬ word <:+: [] :=
  fun inside => lettered.filled (List.infix_nil.mp inside)

/-- What is no letter is not part of a word of letters. -/
theorem Lettered.not_mem
    (lettered : Lettered word)
    {mark : Char}
    (separates : mark.isAlpha = false) :
    mark ∉ word := by
  intro member
  rw [lettered.letters mark member] at separates
  cases separates

/-- A word does not reach over a mark. -/
theorem Lettered.infix_append_cons
    (lettered : Lettered word)
    {mark : Char}
    (separates : mark.isAlpha = false)
    (before after : List Char) :
    word <:+: before ++ mark :: after ↔ word <:+: before ∨ word <:+: after := by
  constructor
  · rintro ⟨left, right, whole⟩
    have apart := lettered.not_mem separates
    rcases List.append_eq_append_iff.mp whole with ⟨rest, reaches, _⟩ | ⟨rest, reaches, tail⟩
    · exact .inl ⟨left, rest, reaches.symm⟩
    · cases rest with
      | nil => exact .inl ⟨left, [], by rw [List.append_nil, reaches, List.append_nil]⟩
      | cons first rest =>
          obtain ⟨rfl, rfl⟩ := List.cons.inj tail
          rcases List.append_eq_append_iff.mp reaches with ⟨other, _, same⟩ | ⟨other, _, same⟩
          · exact (apart (same ▸ List.mem_append_right _ List.mem_cons_self)).elim
          · cases other with
            | nil =>
                have whole : mark :: rest = word := same
                exact (apart (whole ▸ List.mem_cons_self)).elim
            | cons again other =>
                obtain ⟨rfl, rfl⟩ := List.cons.inj same
                exact .inr ⟨other, right, rfl⟩
  · rintro (inside | inside)
    · exact List.infix_append_of_infix_left inside
    · exact List.infix_append_of_infix_right (List.infix_cons inside)

/-- A mark in front adds no place where a word of letters could begin. -/
theorem Lettered.infix_cons
    (lettered : Lettered word)
    {mark : Char}
    (separates : mark.isAlpha = false)
    (after : List Char) :
    word <:+: mark :: after ↔ word <:+: after :=
  (lettered.infix_append_cons separates [] after).trans (or_iff_right lettered.not_infix_nil)

/-- Blanks in front add no place where a word of letters could begin. -/
theorem Lettered.infix_indentation
    (lettered : Lettered word)
    (depth : Nat)
    (after : List Char) :
    word <:+: (indentation depth).toList ++ after ↔ word <:+: after := by
  rw [indentation, String.toList_ofList]
  induction 2 * depth with
  | zero => rfl
  | succ blanks ih => exact (lettered.infix_cons (by decide) _).trans ih

/-- A word of letters stands in an attribute if it stands in the key or in the content. -/
theorem Lettered.infix_written
    (lettered : Lettered word)
    (item : WrittenAttribute) :
    word <:+: (item.value.written item.key).toList ↔
      word <:+: item.key.toList ∨ word <:+: item.value.content.toList := by
  obtain ⟨key, value⟩ := item
  cases value with
  | flag => exact (or_iff_left lettered.not_infix_nil).symm
  | expression inside =>
      have shape : (AttributeValue.written (.expression inside) key).toList =
          key.toList ++ '=' :: '\x7b' :: (inside.toList ++ ['\x7d']) := by
        simp [AttributeValue.written, braced]
      rw [shape, lettered.infix_append_cons (by decide), lettered.infix_cons (by decide),
        lettered.infix_append_cons (by decide), or_iff_left lettered.not_infix_nil]
      rfl
  | text inside =>
      have shape : (AttributeValue.written (.text inside) key).toList =
          key.toList ++ '=' :: '"' :: (inside.toList ++ ['"']) := by
        simp [AttributeValue.written]
      rw [shape, lettered.infix_append_cons (by decide), lettered.infix_cons (by decide),
        lettered.infix_append_cons (by decide), or_iff_left lettered.not_infix_nil]
      rfl

/-- Attributes stand apart from each other and from what is around them. -/
theorem Lettered.infix_attributesText
    (lettered : Lettered word)
    (attributes : List WrittenAttribute)
    {mark : Char}
    (separates : mark.isAlpha = false)
    (before after : List Char) :
    word <:+: before ++ ((attributesText attributes).toList ++ mark :: after) ↔
      (word <:+: before ∨
        ∃ item ∈ attributes,
          word <:+: item.key.toList ∨ word <:+: item.value.content.toList) ∨
        word <:+: after := by
  induction attributes generalizing before with
  | nil =>
      show word <:+: before ++ mark :: after ↔ _
      simp [lettered.infix_append_cons separates]
  | cons item rest ih =>
      have shape :
          (attributesText (item :: rest)).toList =
            ' ' :: ((item.value.written item.key).toList ++ (attributesText rest).toList) := by
        simp [attributesText, String.join_cons]
      rw [shape, List.cons_append, List.append_assoc, lettered.infix_append_cons (by decide), ih,
        lettered.infix_written]
      simp only [List.exists_mem_cons_iff, or_assoc]

/-- An opening tag holds a word in its heading. -/
theorem Lettered.infix_heading
    (lettered : Lettered word)
    (heading : Heading)
    {mark : Char}
    (separates : mark.isAlpha = false)
    (after : List Char) :
    word <:+:
        '<' :: (heading.tag.toList ++
          ((attributesText heading.attributes).toList ++ mark :: after)) ↔
      heading.Holds word ∨ word <:+: after := by
  rw [lettered.infix_cons (by decide), lettered.infix_attributesText _ separates]
  rfl

mutual

/-- A word of letters stands in an element if a heading holds it. -/
theorem Lettered.infix_element
    (lettered : Lettered word)
    (element : Element)
    (depth : Nat)
    (after : List Char) :
    word <:+: (element.text depth).toList ++ after ↔
      (∃ heading ∈ element.headings, heading.Holds word) ∨ word <:+: after := by
  cases element with
  | void tag attributes =>
      have shape :
          ((Element.void tag attributes).text depth).toList ++ after =
            (indentation depth).toList ++
              '<' :: (tag.toList ++
                ((attributesText attributes).toList ++ ' ' :: '/' :: '>' :: '\n' :: after)) := by
        simp [Element.text]
      rw [shape, lettered.infix_indentation, lettered.infix_heading ⟨tag, attributes⟩ (by decide)]
      simp [lettered.infix_cons, Element.headings]
  | element tag attributes children =>
      rw [Element.headings, List.exists_mem_cons_iff]
      have inside := Lettered.infix_elements lettered children (depth + 1)
      have shape :
          ((Element.element tag attributes children).text depth).toList ++ after =
            (indentation depth).toList ++
              '<' :: (tag.toList ++
                ((attributesText attributes).toList ++ '>' :: '\n' ::
                  ((elementsText (depth + 1) children).toList ++
                    ((indentation depth).toList ++
                      '<' :: '/' :: (tag.toList ++ '>' :: '\n' :: after))))) := by
        simp [Element.text]
      rw [shape, lettered.infix_indentation,
        lettered.infix_heading ⟨tag, attributes⟩ (by decide), lettered.infix_cons (by decide),
        inside, lettered.infix_indentation, lettered.infix_cons (by decide),
        lettered.infix_cons (by decide), lettered.infix_append_cons (by decide),
        lettered.infix_cons (by decide)]
      constructor
      · rintro (opened | below | closed | later)
        · exact .inl (.inl opened)
        · exact .inl (.inr below)
        -- The closing tag holds what the opening tag holds.
        · exact .inl (.inl (.inl closed))
        · exact .inr later
      · rintro ((opened | below) | later)
        · exact .inl opened
        · exact .inr (.inl below)
        · exact .inr (.inr (.inr later))

/-- Markup holds a word only in the headings of its elements. -/
theorem Lettered.infix_elements
    (lettered : Lettered word)
    (elements : List Element)
    (depth : Nat)
    (after : List Char) :
    word <:+: (elementsText depth elements).toList ++ after ↔
      (∃ heading ∈ headingsOf elements, heading.Holds word) ∨ word <:+: after := by
  cases elements with
  | nil => simp [elementsText, headingsOf]
  | cons element rest =>
      rw [elementsText, String.toList_append, List.append_assoc,
        Lettered.infix_element lettered element, Lettered.infix_elements lettered rest, headingsOf]
      simp only [List.mem_append, or_and_right, exists_or, or_assoc]

end

end Words

end SceneMarkup.Markup

namespace SceneMarkup.Component

open Scene Markup Pruning

/-- The classes of cameras. -/
def cameraClasses : List String :=
  ["PerspectiveCamera", "OrthographicCamera"]

section Cameras

variable {labels : Labels} {id : NodeId} {transform : Transform} {heading : Heading}
  {camera : String}

/-- The classes of cameras are words of letters. -/
theorem lettered_camera
    (listed : camera ∈ cameraClasses) :
    Lettered camera.toList := by
  rcases List.mem_pair.mp listed with rfl | rfl
  · exact ⟨by decide, by simp⟩
  · exact ⟨by decide, by simp⟩

/-- No key that is written has the name of a camera in it. -/
theorem not_infix_key
    (listed : camera ∈ cameraClasses)
    (own : headingAt labels id transform = .ok heading)
    {item : WrittenAttribute}
    (member : item ∈ heading.attributes) :
    ¬ camera.toList <:+: item.key.toList := by
  have handle : ∀ name ∈ cameraClasses, occursIn name.toList "object".toList = false := by
    decide
  have named : ∀ name ∈ cameraClasses, occursIn name.toList "name".toList = false := by
    decide
  have keyed : ∀ name ∈ cameraClasses, ∀ key : AttributeKey,
      occursIn name.toList key.name.toList = false := by
    intro name listed key
    revert name
    cases key <;> decide
  rw [← occursIn_iff, Bool.not_eq_true]
  cases heads_of_headingAt own with
  | handle bone =>
      rw [List.mem_singleton.mp member]
      exact handle camera listed
  | element other printed =>
      rcases List.mem_append.mp member with name | written
      · rw [eq_of_mem_nameAttributes name]
        exact named camera listed
      · obtain ⟨entry, _, rfl⟩ := List.mem_map.mp written
        exact keyed camera listed entry.key

/-- The tag of an instance is a member of the instances. -/
theorem toList_instanceTag
    (name : String) :
    (instanceTag name).toList = "instances".toList ++ '.' :: name.toList := by
  simp [instanceTag]

/-- The tag of an instance is no camera's. -/
theorem instanceTag_ne_camera
    (listed : camera ∈ cameraClasses)
    (name : String) :
    instanceTag name ≠ camera := by
  intro same
  have dot : '.' ∉ camera.toList := (lettered_camera listed).not_mem (by decide)
  rw [← same, toList_instanceTag] at dot
  exact dot (List.mem_append_right _ List.mem_cons_self)

/-- The class of a camera stands in the tag of an instance if it stands in the name. -/
theorem infix_instanceTag
    (listed : camera ∈ cameraClasses)
    (name : String) :
    camera.toList <:+: (instanceTag name).toList ↔ camera.toList <:+: name.toList := by
  have front : ∀ name ∈ cameraClasses, occursIn name.toList "instances".toList = false := by
    decide
  have apart : ¬ camera.toList <:+: "instances".toList := by
    rw [← occursIn_iff, Bool.not_eq_true]
    exact front camera listed
  rw [toList_instanceTag, (lettered_camera listed).infix_append_cons (by decide),
    or_iff_right apart]

/-- A tag holds the name of a camera only if it is that tag or the name of its instance does. -/
theorem infix_tag_iff
    (listed : camera ∈ cameraClasses)
    (own : headingAt labels id transform = .ok heading) :
    camera.toList <:+: heading.tag.toList ↔
      heading.tag = camera ∨
        ∃ name, heading.tag = instanceTag name ∧ camera.toList <:+: name.toList := by
  have plain : ∀ {tag : String},
      (∀ name, tag ≠ instanceTag name) →
        (occursIn camera.toList tag.toList = true ↔ tag = camera) →
          (camera.toList <:+: tag.toList ↔
            tag = camera ∨ ∃ name, tag = instanceTag name ∧ camera.toList <:+: name.toList) := by
    intro tag other whole
    rw [← occursIn_iff, whole]
    exact (or_iff_left fun ⟨name, same, _⟩ => other name same).symm
  cases heads_of_headingAt own with
  | handle bone =>
      have whole : ∀ name ∈ cameraClasses,
          (occursIn name.toList "primitive".toList = true ↔ "primitive" = name) := by
        decide
      exact plain primitive_ne_instanceTag (whole camera listed)
  | element other printed =>
      show camera.toList <:+: (tagAt labels id).toList ↔ tagAt labels id = camera ∨ _
      unfold tagAt
      cases labels.sharedPair? id with
      | none =>
          have whole : ∀ name ∈ cameraClasses, ∀ type ∈ typeNames,
              (occursIn name.toList (tagOfTypeName type).toList = true ↔
                tagOfTypeName type = name) := by
            decide
          exact plain (tagOf_ne_instanceTag _) (whole camera listed _ (typeName_mem _))
      | some pair =>
          show camera.toList <:+: (instanceTag pair.name).toList ↔
            instanceTag pair.name = camera ∨
              ∃ name, instanceTag pair.name = instanceTag name ∧ camera.toList <:+: name.toList
          rw [infix_instanceTag listed, or_iff_right (instanceTag_ne_camera listed pair.name)]
          simp only [instanceTag_injective.eq_iff, exists_eq_left']

/-- What of a heading holds the name of a camera. -/
theorem holds_camera_iff
    (listed : camera ∈ cameraClasses)
    (own : headingAt labels id transform = .ok heading) :
    heading.Holds camera.toList ↔
      heading.tag = camera ∨
        (∃ name, heading.tag = instanceTag name ∧ camera.toList <:+: name.toList) ∨
        ∃ item ∈ heading.attributes, camera.toList <:+: item.value.content.toList := by
  unfold Heading.Holds
  rw [infix_tag_iff listed own, or_assoc]
  refine or_congr_right (or_congr_right (exists_congr fun item => and_congr_right fun member => ?_))
  exact or_iff_right (not_infix_key listed own member)

end Cameras

section Imports

variable {source : Source}

/-- A camera is imported if its class stands anywhere in the body. -/
theorem mem_cameras_iff
    {name : String} :
    name ∈ source.cameras ↔ name ∈ cameraClasses ∧ name.toList <:+: source.body.toList := by
  rw [Source.cameras, List.mem_filter, occursIn_iff]
  rfl

/-- What a module imports, and what asks for it. -/
theorem mem_importedNames_iff
    {name : String} :
    name ∈ importedNames source ↔
      name ∈ ["React", "useRef", "useGLTF"] ∨
        (source.options.types = true ∧ name ∈ ["THREE", "as", "GLTF"]) ∨
        (source.hasInstances = true ∧ name ∈ ["Merged", "useMemo"]) ∨
        (source.labels.animated = true ∧ name = "useAnimations") ∨
        name ∈ cameraClasses ∧ name.toList <:+: source.body.toList := by
  rw [← mem_cameras_iff]
  cases types : source.options.types <;> cases instances : source.hasInstances <;>
    cases animated : source.labels.animated <;>
    simp [importedNames, Source.libraryNames, types, instances, animated, or_assoc, or_comm,
      or_left_comm]

end Imports

section Scenes

variable {fileName : String} {graph : SceneGraph} {options : Options} {text : String}

/--
Modules import what their markup speaks of.  What instances need is imported if
and only if some element is drawn through one, and what clips need if and only if
the scene has some.  A camera is imported if and only if some element has its
tag, is drawn through an instance with the class in its name, or has the class in
the content of an attribute.
-/
theorem convert_imports_mentions
    (linked : graph.Linked)
    (intact : Intact graph)
    (converted : (convert fileName graph options).result = .ok text) :
    let imports := (readModule text).reading.imports
    ∃ elements,
      let headings := headingsOf elements
      text = (sourceOf fileName graph options elements).text ∧
        (∀ camera ∈ cameraClasses,
          camera ∈ imports ↔
            (∃ heading ∈ headings, heading.tag = camera) ∨
            (∃ heading ∈ headings, ∃ name,
              heading.tag = instanceTag name ∧ camera.toList <:+: name.toList) ∨
            ∃ heading ∈ headings, ∃ item ∈ heading.attributes,
              camera.toList <:+: item.value.content.toList) ∧
        ("Merged" ∈ imports ↔ ∃ heading ∈ headings, ∃ name, heading.tag = instanceTag name) ∧
        ("useMemo" ∈ imports ↔ ∃ heading ∈ headings, ∃ name, heading.tag = instanceTag name) ∧
        ("useAnimations" ∈ imports ↔ graph.clips ≠ []) := by
  intro imports
  obtain ⟨final, elements, rendered⟩ := exists_rendered linked converted
  have body := rendered.headings linked intact
  have fits : Fits (sourceOf fileName graph options elements) :=
    fits_of_stands rfl (elementsOf_stands rendered.written) fileName bodyDepth
  obtain ⟨uses, scopes, reads, _, _⟩ := readModule_text fits
  have imported : imports = importedNames (sourceOf fileName graph options elements) := by
    show (readModule text).reading.imports = _
    rw [rendered.text, reads]
    rfl
  rw [imported]
  have instanced :
      (sourceOf fileName graph options elements).hasInstances = true ↔
        ∃ heading ∈ headingsOf elements, ∃ name, heading.tag = instanceTag name :=
    hasInstances_iff linked body fun id => rendered.group linked intact
  refine ⟨elements, rendered.text, fun camera listed => ?_, ?_, ?_, ?_⟩
  · have others : camera ∉ ["React", "useRef", "useGLTF"] ∧ camera ∉ ["THREE", "as", "GLTF"] ∧
        camera ∉ ["Merged", "useMemo"] ∧ camera ≠ "useAnimations" := by
      rcases List.mem_pair.mp listed with rfl | rfl <;> decide
    have held : camera ∈ importedNames (sourceOf fileName graph options elements) ↔
        camera.toList <:+: (elementsText bodyDepth elements).toList := by
      rw [mem_importedNames_iff]
      simp only [others, listed, and_false, false_or, true_and]
      rfl
    have found := (lettered_camera listed).infix_elements elements bodyDepth []
    rw [List.append_nil, or_iff_left (lettered_camera listed).not_infix_nil] at found
    rw [held, found, ← exists_or, ← exists_or]
    refine exists_congr fun heading => ?_
    rw [← and_or_left, ← and_or_left]
    refine and_congr_right fun member => ?_
    obtain ⟨id, own⟩ := exists_of_forall₂ body member
    exact holds_camera_iff listed own
  · rw [← instanced, mem_importedNames_iff]
    simp [cameraClasses]
  · rw [← instanced, mem_importedNames_iff]
    simp [cameraClasses]
  · rw [mem_importedNames_iff]
    simp [cameraClasses, sourceOf, Labels.animated, Labels.ofGraph, rendered.clips]

/-- Of two boxes with one surface the module imports what instances need, and nothing for clips. -/
theorem convert_imports_mentions_twinScene :
    let options : Options := { instanceShared := true }
    ∃ text elements,
      (convert "twin.glb" twinScene options).result = .ok text ∧
        text = (sourceOf "twin.glb" twinScene options elements).text ∧
        ("Merged" ∈ (readModule text).reading.imports ↔
          ∃ heading ∈ headingsOf elements, ∃ name, heading.tag = instanceTag name) ∧
        "useAnimations" ∉ (readModule text).reading.imports := by
  intro options
  have intact : Intact twinScene :=
    ⟨built_twinScene.tidy, fun removed => absurd removed (by decide)⟩
  have succeeds : (convert "twin.glb" twinScene options).result.isOk = true := by
    decide +kernel
  obtain ⟨text, converted⟩ := exists_eq_ok succeeds
  obtain ⟨elements, shape, _, merged, _, animated⟩ :=
    convert_imports_mentions built_twinScene.linked intact converted
  exact ⟨text, elements, converted, shape, merged, fun imported => animated.mp imported rfl⟩

/-- A mesh that is called like a class of cameras. -/
def namesakeScene : SceneGraph :=
  (SceneGraph.ofRoot "Scene").add 0 { name := "PerspectiveCamera", kind := .mesh }

/-- With all names kept the class is imported for the mesh, though no element has it as its tag. -/
theorem unused_camera_is_imported :
    let options : Options := { keepNames := true }
    let elements : List Element := [.void "mesh" [⟨"name", .text "PerspectiveCamera"⟩]]
    ∃ text,
      (convert "hall.glb" namesakeScene options).result = .ok text ∧
        text = (sourceOf "hall.glb" namesakeScene options elements).text ∧
        "PerspectiveCamera" ∈ (readModule text).reading.imports ∧
        ∀ heading ∈ headingsOf elements, heading.tag ≠ "PerspectiveCamera" := by
  intro options elements
  let source := sourceOf "hall.glb" namesakeScene options elements
  have converted : (convert "hall.glb" namesakeScene options).result = .ok source.text :=
    eq_ok_of_toOption (by decide +kernel)
  have own :
      headingAt source.labels 1 (source.labels.graph.node 1).transform =
        .ok ⟨"mesh", [⟨"name", .text "PerspectiveCamera"⟩]⟩ :=
    eq_ok_of_toOption (by decide +kernel)
  have stand : List.Forall₂ (Stands source.labels) [.node 1 []] elements :=
    .cons (.void own) .nil
  have fits : Fits source := fits_of_stands rfl stand "hall.glb" bodyDepth
  obtain ⟨uses, scopes, reads, _⟩ := readModule_text fits
  have held : "PerspectiveCamera".toList <:+: source.body.toList :=
    occursIn_iff.mp (by decide)
  have mentioned : "PerspectiveCamera" ∈ source.cameras :=
    mem_cameras_iff.mpr ⟨List.mem_cons_self, held⟩
  have imported : "PerspectiveCamera" ∈ importedNames source := by
    simp [importedNames, Source.libraryNames, mentioned]
  refine ⟨source.text, converted, rfl, ?_, by decide⟩
  rw [reads]
  exact imported

end Scenes

end SceneMarkup.Component
