import SceneMarkup.Proofs.Imports
import SceneMarkup.Proofs.ReadBack

namespace SceneMarkup.Component

open Scene Markup

/-!
# Modules know the names that they use

The parts of a module are read one after another.  The imports and the types
make some shared names known to the whole module; each function binds others,
and what its lines, its expressions and its markup use is among both.
-/

section Cameras

/-- What occurs in a text is a part of it. -/
theorem occursIn_iff
    {part text : List Char} :
    occursIn part text = true ↔ part <:+: text := by
  induction text with
  | nil => rw [occursIn, List.isEmpty_iff, List.infix_nil]
  | cons character rest ih =>
      rw [occursIn, Bool.or_eq_true, ih, List.isPrefixOf_iff_prefix, List.infix_cons_iff]

mutual

/-- The tag of every heading stands in the text of the element. -/
theorem tag_infix_element
    (element : Element)
    (depth : Nat)
    {heading : Heading}
    (member : heading ∈ element.headings) :
    heading.tag.toList <:+: (element.text depth).toList := by
  cases element with
  | void tag attributes =>
      rw [Element.headings] at member
      obtain rfl := List.mem_singleton.mp member
      rw [Element.text]
      simp only [String.toList_append, List.append_assoc]
      exact List.infix_append_of_infix_right (List.infix_append_of_infix_right
        (List.infix_append_of_infix_left List.infix_rfl))
  | element tag attributes children =>
      rw [Element.headings] at member
      rw [Element.text]
      simp only [String.toList_append, List.append_assoc]
      rcases List.mem_cons.mp member with rfl | below
      · exact List.infix_append_of_infix_right (List.infix_append_of_infix_right
          (List.infix_append_of_infix_left List.infix_rfl))
      · have inside := tag_infix_elements children (depth + 1) below
        iterate 5 apply List.infix_append_of_infix_right
        exact List.infix_append_of_infix_left inside

/-- Markup shows the tags of its elements. -/
theorem tag_infix_elements
    (elements : List Element)
    (depth : Nat)
    {heading : Heading}
    (member : heading ∈ headingsOf elements) :
    heading.tag.toList <:+: (elementsText depth elements).toList := by
  cases elements with
  | nil => cases member
  | cons element rest =>
      rw [headingsOf] at member
      rw [elementsText, String.toList_append]
      rcases List.mem_append.mp member with here | later
      · exact List.infix_append_of_infix_left (tag_infix_element element depth here)
      · exact List.infix_append_of_infix_right (tag_infix_elements rest depth later)

end

end Cameras

section Sources

/-- What a module is filled with uses only what it may. -/
structure Fits (source : Source) : Prop where
  body :
    ∀ allowed, "nodes" ∈ allowed → "materials" ∈ allowed →
      (source.hasInstances = true → "instances" ∈ allowed) →
        (∀ camera ∈ source.cameras, camera ∈ allowed) →
          Passes allowed Place.Rests source.body.toList Place.Rests
  entries :
    ∀ pair ∈ source.labels.index.pairs,
      IsWord pair.name.toList ∧ ∃ name, pair.node = Scene.nodeExpression name

/-- The names that are known in a whole module. -/
def knownNames (source : Source) : List String :=
  importedNames source ++ declaredTypes source

variable {source : Source}

/-- With types the library and the two types of the asset are known. -/
theorem known_of_types
    (typed : source.options.types = true) :
    ∀ name ∈ ["THREE", "GLTF", "GLTFResult"], name ∈ knownNames source := by
  simp [knownNames, importedNames, declaredTypes, typed]

/-- With instances the merging helpers are known. -/
theorem known_of_instances
    (instances : source.hasInstances = true) :
    "Merged" ∈ knownNames source ∧ "useMemo" ∈ knownNames source := by
  simp [knownNames, importedNames, Source.libraryNames, instances]

/-- With clips the hook of animations is known, and with types their type. -/
theorem known_of_animated
    (animated : source.labels.animated = true) :
    "useAnimations" ∈ knownNames source ∧
      (source.options.types = true → "GLTFActions" ∈ knownNames source) := by
  constructor
  · simp [knownNames, importedNames, Source.libraryNames, animated]
  · intro typed
    simp [knownNames, declaredTypes, animated, typed]

/-- A camera that the body mentions is known. -/
theorem known_of_camera
    {camera : String}
    (mentioned : camera ∈ source.cameras) :
    camera ∈ knownNames source := by
  simp [knownNames, importedNames, Source.libraryNames, mentioned]

/-- Elements that stand for nodes, with the index that their scene was drawn with, fit. -/
theorem fits_of_stands
    {graph : SceneGraph}
    {options : Options}
    {labels : Labels}
    (index : labels.index = InstanceIndex.analyze graph options)
    {forest : List Sprout}
    {elements : List Element}
    (stand : List.Forall₂ (Stands labels) forest elements)
    (fileName : String)
    (depth : Nat) :
    Fits ⟨labels, fileName, elementsText depth elements⟩ where
  body := by
    intro allowed nodes materials instances cameras
    refine passes_elements elements (fun heading member => ?_) depth
    obtain ⟨id, own⟩ := owned_of_forall₂ elements stand heading member
    refine headingUses_of_headingAt nodes materials ?_ ?_ own ?_
    · rw [index]
      exact fun pair listed => isWord_analyze listed
    · intro instancing filled
      refine instances ?_
      rw [Source.hasInstances, Bool.and_eq_true, Bool.not_eq_true', InstanceIndex.isEmpty,
        List.isEmpty_eq_false_iff]
      exact ⟨instancing, filled⟩
    · intro camera
      exact cameras _ (List.mem_filter.mpr
        ⟨camera, occursIn_iff.mpr (tag_infix_elements elements depth member)⟩)
  entries := by
    intro pair listed
    have entry : pair ∈ (InstanceIndex.analyze graph options).pairs := index ▸ listed
    obtain ⟨node, _, _, reached⟩ :=
      (InstanceIndex.tallied_found graph).reached pair (InstanceIndex.mem_analyze.mp entry).1
    exact ⟨isWord_analyze entry, node.name, reached⟩

/-- The lines of the component. -/
def modelLines (source : Source) : String :=
  ("  const group = " ++ (if source.options.types then "useRef<THREE.Group>()" else "useRef()")
      ++ "\n")
    ++ (("  const "
        ++ braced (if source.labels.animated then " nodes, materials, animations "
          else " nodes, materials ")
        ++ " = ")
      ++ ((source.typedLoad ++ "\n")
        ++ ((if source.labels.animated then
            "  const " ++ braced " actions " ++ " = useAnimations"
              ++ (if source.options.types then "<GLTFActions>" else "") ++ "(animations, group)"
              ++ "\n"
          else "")
          ++ (("  return (\n" ++ "    <group ref=" ++ braced "group" ++ " " ++ braced "...props"
              ++ " dispose=" ++ braced "null" ++ ">\n")
            ++ (source.body ++ ("    </group>\n" ++ "  )\n"))))))

/-- The names that the lines of the component bind, the latest first. -/
def modelBinds (source : Source) : List String :=
  (if source.labels.animated then ["actions"] else [])
    ++ (if source.labels.animated then ["animations", "materials", "nodes"]
      else ["materials", "nodes"])
    ++ ["group"]

/-- The call that loads the asset ahead of time. -/
def preloadCall (source : Source) : String :=
  "\nuseGLTF.preload(" ++ source.address ++ ")\n"

/-- The component is its heading, its lines and the call that loads ahead. -/
theorem model_eq
    (source : Source) :
    source.model = modelHeading source ++ (modelLines source ++ "\x7d\n") ++ preloadCall source := by
  have split : "\n  const " = "\n" ++ "  const " := by
    decide
  unfold Source.model Source.actions modelHeading modelLines preloadCall
  simp only [split]
  cases source.labels.animated <;> simp only [String.append_assoc, if_true, if_false,
    Bool.false_eq_true, String.empty_append]

/-- The component binds both tables, and the animations where there are clips. -/
theorem table_bound
    (source : Source) :
    "nodes" ∈ modelBinds source ∧ "materials" ∈ modelBinds source ∧
      (source.labels.animated = true → "animations" ∈ modelBinds source) := by
  unfold modelBinds
  cases source.labels.animated <;> decide

/-- The lines of the component use what is known or bound. -/
theorem adds_modelLines
    (fits : Fits source)
    {allowed : List String}
    (known : ∀ name ∈ knownNames source, name ∈ allowed)
    (bound : ∀ name ∈ modelBinds source, name ∈ allowed)
    (instances : source.hasInstances = true → "instances" ∈ allowed) :
    Adds allowed (modelBinds source) (modelLines source) := by
  obtain ⟨nodes, materials, animations⟩ := table_bound source
  have three : ∀ name ∈ (if source.options.types then ["THREE"] else []), name ∈ allowed := by
    split
    next typed =>
      exact List.forall_mem_singleton.mpr (known _ (known_of_types typed "THREE" (by decide)))
    next => exact List.forall_mem_nil _
  have group := (adds_group source.options.types).mono three
  have tables : Adds allowed _ _ :=
    (adds_tables source.labels.animated).mono (List.forall_mem_nil _)
  have load : Adds allowed [] (source.typedLoad ++ "\n") :=
    adds_of_passes (passes_typedLoad fun typed =>
      known _ (known_of_types typed "GLTFResult" (by decide)))
  have actions :
      Adds allowed (if source.labels.animated then ["actions"] else [])
        (if source.labels.animated then
          "  const " ++ braced " actions " ++ " = useAnimations"
            ++ (if source.options.types then "<GLTFActions>" else "") ++ "(animations, group)"
            ++ "\n"
        else "") := by
    cases animated : source.labels.animated with
    | true =>
        obtain ⟨hook, types⟩ := known_of_animated animated
        refine (adds_actions source.options.types).mono ?_
        refine List.forall_mem_cons.mpr ⟨known _ hook, List.forall_mem_cons.mpr
          ⟨bound _ (animations animated), ?_⟩⟩
        split
        next typed => exact List.forall_mem_singleton.mpr (known _ (types typed))
        next => exact List.forall_mem_nil _
    | false => exact adds_of_passes passes_nil
  have markup : Adds allowed [] _ :=
    adds_markup (fits.body allowed (bound _ nodes) (bound _ materials) instances
      fun camera mentioned => known _ (known_of_camera mentioned))
  have whole := adds_append group (adds_append tables (adds_append load
    (adds_append actions markup)))
  rw [List.append_nil, List.nil_append] at whole
  exact whole

/-- The component uses what it binds or what the module knows. -/
theorem defines_model
    (fits : Fits source) :
    Defines (knownNames source) (modelHeading source ++ (modelLines source ++ "\x7d\n")) := by
  refine defines_function (opens_model source) (adds_modelLines fits ?_ ?_ ?_)
  · exact fun name member => List.mem_append_left _ member
  · exact fun name member => List.mem_append_right _ (List.mem_append_left _ member)
  · intro instances
    refine List.mem_append_right _ (List.mem_append_right _ ?_)
    rw [parametersOf, if_pos instances]
    decide

/-- The lines of the component that defines the instances. -/
def instancedLines (source : Source) : String :=
  ("  const " ++ braced " nodes " ++ " = ")
    ++ ((source.typedLoad ++ "\n")
      ++ ((("  const instances = useMemo(\n" ++ "    () => (\x7b\n")
          ++ (source.instanceEntries ++ ("    \x7d),\n" ++ "    [nodes]\n" ++ "  )\n")))
        ++ ("  return (\n" ++ "    <Merged meshes=" ++ braced "instances" ++ " "
          ++ braced "...props" ++ ">\n" ++ "      "
          ++ braced ("(instances) => <Model instances=" ++ braced "instances" ++ " />")
          ++ "\n" ++ "    </Merged>\n" ++ "  )\n")))

/-- The wrapper is its heading and its lines. -/
theorem instancedModel_eq
    (source : Source) :
    source.instancedModel =
      instancedHeading source.options.types ++ (instancedLines source ++ "\x7d\n") := by
  unfold Source.instancedModel instancedHeading instancedLines
  simp only [String.append_assoc]

/-- The component that defines the instances uses what it binds or what the module knows. -/
theorem defines_instancedModel
    (fits : Fits source)
    (instances : source.hasInstances = true) :
    Defines (knownNames source) source.instancedModel := by
  obtain ⟨merged, memo⟩ := known_of_instances instances
  rw [instancedModel_eq]
  let allowed := knownNames source
    ++ (["instances", "nodes"]
      ++ if source.options.types then ["InstancedModel"] else ["props", "InstancedModel"])
  have known : ∀ name ∈ knownNames source, name ∈ allowed :=
    fun name member => List.mem_append_left _ member
  have bound : ∀ name ∈ ["instances", "nodes"], name ∈ allowed :=
    fun name member => List.mem_append_right _ (List.mem_append_left _ member)
  obtain ⟨own, rest⟩ := List.forall_mem_cons.mp bound
  have nodes := List.forall_mem_singleton.mp rest
  have table : Adds allowed ["nodes"] ("  const " ++ braced " nodes " ++ " = ") :=
    ⟨[], covers_nil, fun _ _ _ _ _ => by cbv⟩
  have load : Adds allowed [] (source.typedLoad ++ "\n") :=
    adds_of_passes (passes_typedLoad fun typed =>
      known _ (known_of_types typed "GLTFResult" (by decide)))
  have entries : Adds allowed ["instances"] _ :=
    adds_instances (known _ memo) nodes (passes_instanceEntries nodes fits.entries)
  have drawn : Adds allowed [] _ :=
    adds_merged.mono (List.forall_mem_cons.mpr
      ⟨known _ merged, List.forall_mem_singleton.mpr own⟩)
  have lines : Adds allowed ["instances", "nodes"] (instancedLines source) :=
    adds_append table (adds_append load (adds_append entries drawn))
  exact defines_function (opens_instancedModel source.options.types) lines

end Sources

section Modules

/-- The call that loads ahead uses no shared name but the hook. -/
theorem passes_preloadCall
    (source : Source)
    {allowed : List String} :
    Passes allowed Place.Rests (preloadCall source).toList Place.Rests := by
  have hook : IsWord "useGLTF".toList ∧ Harmless [] "useGLTF" := by
    decide
  have name : Passes allowed Place.Rests "useGLTF".toList (Place.Whole allowed) :=
    passes_word hook.1 hook.2.widen
  have member : Passes allowed (Place.Whole allowed) ('.' :: "preload".toList) _ :=
    passes_member (by decide)
  have address : Passes allowed Place.Rests _ Place.Rests :=
    passes_quoted (assetAddress source.fileName)
  have line : Passes allowed (Place.Ready allowed) "\n".toList Place.Rests :=
    passes_breaks (by decide) (by decide)
  have shape :
      (preloadCall source).toList =
        "\n".toList ++ (("useGLTF".toList ++ ('.' :: "preload".toList))
          ++ (('(' :: (Text.quoted (assetAddress source.fileName)).toList ++ [')'])
            ++ "\n".toList)) := by
    unfold preloadCall Source.address
    simp
  rw [shape]
  have call := (passes_append name member).imp (fun _ rests => rests) fun _ => ready_of_whole
  exact (passes_append line (passes_append call
    (passes_append (passes_parentheses address.ready).ready line))).imp
    (fun _ => ready_of_rests) fun _ rests => rests

/-- What the reader sees of a module behind the leading comment. -/
theorem afterComment_text
    (source : Source) :
    afterComment (source.text.toList.drop 2) =
      ("\n\n" ++ (source.imports
        ++ ((if source.hasInstances then source.instancedModel else "") ++ source.model))).toList := by
  obtain ⟨notes, comment⟩ :=
    toList_headerComment source.options source.labels.graph.extras
  have shape :
      source.text.toList =
        '/' :: '*' :: '\n' :: (splitTerminators notes ++ '\n' :: '*' :: '/' ::
          ("\n\n" ++ (source.imports
            ++ ((if source.hasInstances then source.instancedModel else "")
              ++ source.model))).toList) := by
    have line : "\n".toList = ['\n'] := by
      decide
    have lines : "\n\n".toList = ['\n', '\n'] := by
      decide
    rw [Source.text, String.toList_append, String.toList_append, String.toList_append,
      String.toList_append, String.toList_append, String.toList_append, String.toList_append,
      comment, line, lines]
    simp only [List.cons_append, List.append_assoc, List.nil_append]
  have other : '\n' ≠ '*' := by
    decide
  rw [shape, List.drop_succ_cons, List.drop_succ_cons, List.drop_zero,
    afterComment_cons fun same => absurd same other, afterComment_splitTerminators]

/-- The component that defines the instances, if there is one. -/
theorem run_wrapper
    (fits : Fits source) :
    ∃ around scopes,
      Covers (knownNames source) around ∧
        (∀ scope ∈ scopes, Covers (knownNames source ++ scope.binds) scope.uses) ∧
        ∀ imports types uses,
          Cursor.run ⟨.code 0, outside 0 imports types uses []⟩
              (if source.hasInstances then source.instancedModel else "").toList =
            ⟨.code 0, outside 0 imports types (around ++ uses) scopes⟩ := by
  cases instances : source.hasInstances with
  | false => exact ⟨[], [], covers_nil, List.forall_mem_nil _, fun _ _ _ => rfl⟩
  | true =>
      obtain ⟨scope, around, covered, aroundCovered, reads⟩ :=
        defines_instancedModel fits instances
      exact ⟨around, [scope], aroundCovered, List.forall_mem_singleton.mpr covered,
        fun imports types uses => reads imports types uses []⟩

/-- A module is read to its end.  What is used outside of functions is known to the module, and
what a function uses is known to the module or bound in the function. -/
theorem readModule_text
    (fits : Fits source) :
    ∃ uses scopes,
      readModule source.text =
          ⟨.code 0, outside 0 (importedNames source) (declaredTypes source) uses scopes⟩ ∧
        Covers (knownNames source) uses ∧
        ∀ scope ∈ scopes, Covers (knownNames source ++ scope.binds) scope.uses := by
  have blank : Supplies (knownNames source) [] [] "\n\n" :=
    supplies_of_passes ((passes_breaks (by decide) (by decide)).imp
      (fun _ => ready_of_rests) fun _ rests => rests)
  have imports : Supplies (knownNames source) _ _ source.imports :=
    supplies_imports source fun typed name member =>
      known_of_types typed name (List.mem_append_left ["GLTFResult"] member)
  have preload : Supplies (knownNames source) [] [] (preloadCall source) :=
    supplies_of_passes (passes_preloadCall source)
  obtain ⟨first, firstCovered, readsImports⟩ := supplies_append blank imports
  obtain ⟨second, scopes, secondCovered, scopesCovered, readsWrapper⟩ := run_wrapper fits
  obtain ⟨scope, third, covered, thirdCovered, readsModel⟩ := defines_model fits
  obtain ⟨last, lastCovered, readsPreload⟩ := preload
  refine ⟨last ++ (third ++ (second ++ first)), scope :: scopes, ?_, ?_, ?_⟩
  · have start : Reading.start = outside 0 [] [] [] [] := rfl
    have text :
        "\n\n" ++ (source.imports
            ++ ((if source.hasInstances then source.instancedModel else "") ++ source.model)) =
          ("\n\n" ++ source.imports)
            ++ ((if source.hasInstances then source.instancedModel else "")
              ++ ((modelHeading source ++ (modelLines source ++ "\x7d\n"))
                ++ preloadCall source)) := by
      rw [model_eq]
      simp only [String.append_assoc]
    rw [readModule, afterComment_text, text, start, String.toList_append, Cursor.run_append,
      readsImports, String.toList_append, Cursor.run_append, readsWrapper, String.toList_append,
      Cursor.run_append, readsModel, readsPreload]
    simp
  · exact covers_append lastCovered (covers_append thirdCovered
      (covers_append secondCovered firstCovered))
  · exact List.forall_mem_cons.mpr ⟨covered, scopesCovered⟩

/--
Every shared name that a module uses is known where it is used: the module
imports it or declares it as a type, or the function that uses it binds it.  The
reader gets to the end of the module outside of words, literals, brackets and
functions, so it misses none of them.
-/
theorem convert_binds_names
    {fileName : String}
    {graph : SceneGraph}
    {options : Options}
    {text : String}
    (converted : (convert fileName graph options).result = .ok text) :
    let reading := (readModule text).reading
    (readModule text).place = .code 0 ∧ reading.depth = 0 ∧ reading.function? = none ∧
      ∀ scope ∈ reading.scopes, ∀ name ∈ scope.uses, name ∈ sharedNames →
        reading.Knows scope name := by
  obtain ⟨decided, elements, _, _, written, rfl⟩ := convert_spec converted
  have fits := fits_of_stands rfl (elementsOf_stands written) fileName bodyDepth
  obtain ⟨uses, scopes, reads, outer, covered⟩ := readModule_text fits
  rw [reads]
  refine ⟨rfl, rfl, rfl, fun scope listed name used shared => ?_⟩
  rcases List.mem_cons.mp listed with rfl | later
  · exact (List.mem_append.mp (outer name used shared)).imp_right .inl
  · rcases List.mem_append.mp (covered scope later name used shared) with known | bound
    · exact (List.mem_append.mp known).imp_right .inl
    · exact .inr (.inr bound)

/-- Two boxes with one surface, one of them opened by a clip, in front of a camera. -/
def stageScene : SceneGraph :=
  let box : Node := { name := "Box", kind := .mesh, geometry := some 0, material := some 0 }
  { (((SceneGraph.ofRoot "Stage").add 0 box).add 0 box).add 0
      { name := "View", kind := .camera { projection := .perspective 50.0 none } } with
    clips := [{ name := "Open", targets := [1] }] }

/-- Typed, animated and with an instance, the module knows what it uses. -/
theorem convert_binds_names_stageScene :
    let options : Options := { types := true, instanceShared := true }
    ∃ text,
      (convert "stage.glb" stageScene options).result = .ok text ∧
        let reading := (readModule text).reading
        (readModule text).place = .code 0 ∧ reading.depth = 0 ∧ reading.function? = none ∧
          ∀ scope ∈ reading.scopes, ∀ name ∈ scope.uses, name ∈ sharedNames →
            reading.Knows scope name := by
  intro options
  have succeeds : (convert "stage.glb" stageScene options).result.isOk = true := by
    decide +kernel
  obtain ⟨text, converted⟩ := exists_eq_ok succeeds
  exact ⟨text, converted, convert_binds_names converted⟩

end Modules

end SceneMarkup.Component
