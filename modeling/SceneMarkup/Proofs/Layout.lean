import SceneMarkup.Proofs.Bindings
import SceneMarkup.Proofs.LineReader

namespace SceneMarkup.Component

open Scene Markup

/-!
# How a module is laid out

The parts of a module are surveyed one after another: the imports and the result
type, the component that defines the instances, and the lines of the component
before its markup.  Whatever names, paths and data they are filled with stand in
literals or in lines that the reader does not heed, so the blocks hold the rows
that they should, and the markup is found where it begins.
-/

section Parts

/-- The row that declares a node or a material of a class. -/
def declaredRow (entry : String × String) : Row :=
  (Text.propertyKey entry.1, "THREE." ++ entry.2)

/-- The row of an entry of the instance index. -/
def instanceRow (pair : SharedPair) : Row :=
  (pair.name, pair.node ++ ",")

/-- What a module is laid out as. -/
def Source.layout (source : Source) : Layout where
  nodes :=
    if source.options.types then (declaredNodes source.labels).map declaredRow else []
  materials :=
    if source.options.types then (declaredMaterials source.labels.graph).map declaredRow else []
  instances :=
    if source.hasInstances then source.labels.index.pairs.map instanceRow else []
  wrapped := source.hasInstances

variable {layout : Layout} {source : Source}

/-- The declarations of a block are surveyed as its rows. -/
theorem surveys_declarations
    {block : Block}
    (margin : block.margin = 4)
    {entries : List (String × String)}
    (classes : ∀ entry ∈ entries, IsWord entry.2.toList) :
    Surveys ⟨.block block, layout⟩ (declarations entries)
      ⟨.block block, layout.extend (entries.map declaredRow) block⟩ := by
  have shape : declarations entries = String.join ((entries.map declaredRow).map (rowText block)) := by
    have blanks : String.ofList (List.replicate 4 ' ') = "    " := by
      decide
    have dotted : ": THREE." = ": " ++ "THREE." := by
      decide
    unfold declarations rowText declaredRow
    simp only [List.map_map, Function.comp_def, margin, blanks, dotted, String.append_assoc]
  rw [shape]
  refine surveys_rows block (List.forall_mem_map.mpr fun entry _ => ?_)
    (List.forall_mem_map.mpr fun entry listed => ⟨?_, ?_⟩)
  · exact whole_propertyKey (by decide) (by decide) entry.1
  · exact whole_propertyKey (by decide) (by decide) entry.1
  · rw [declaredRow, String.toList_append]
    exact whole_append (by decide) (whole_word (by decide) (classes entry listed))

/-- The types of the animations add nothing to the layout. -/
theorem surveys_actionTypes
    (clips : List Clip) :
    Surveys ⟨.code, layout⟩ (actionTypes clips) ⟨.code, layout⟩ := by
  unfold actionTypes
  split
  next => exact surveys_empty _
  next =>
    have names :
        Whole '\n' (" | ".intercalate (clips.map fun clip => Json.quotedText clip.name)).toList := by
      rw [String.toList_intercalate]
      refine whole_intercalate (by decide) ?_
      simp only [List.forall_mem_map]
      exact fun clip _ => whole_constant (constant_quotedText clip.name)
    have blank : Surveys ⟨.code, layout⟩ "\n" ⟨.code, layout⟩ :=
      surveys_lines [""] (by decide) (by decide)
    have types :
        Surveys ⟨.code, layout⟩
          ("type ActionName = " ++ " | ".intercalate (clips.map fun clip => Json.quotedText clip.name)
            ++ "\n") ⟨.code, layout⟩ := by
      have start : Unmarked "type ActionName = ".toList := by
        decide
      exact surveys_ordinary (by simp) (start.append names)
    have actions :
        Surveys ⟨.code, layout⟩
          ("type GLTFActions = Record<ActionName, THREE.AnimationAction>" ++ "\n")
          ⟨.code, layout⟩ :=
      surveys_lineOf (by decide)
    have first : "\ntype ActionName = " = "\n" ++ "type ActionName = " := by
      decide
    have second :
        "\ntype GLTFActions = Record<ActionName, THREE.AnimationAction>\n" =
          "\n" ++ ("type GLTFActions = Record<ActionName, THREE.AnimationAction>" ++ "\n") := by
      decide
    have whole := surveys_append blank (surveys_append types actions)
    rw [first, second]
    simpa only [String.append_assoc] using whole

/-- The blocks of the result type hold the declared rows. -/
theorem surveys_resultType
    (labels : Labels) :
    Surveys ⟨.code, layout⟩ (resultType labels)
      ⟨.code,
        (layout.extend ((declaredNodes labels).map declaredRow) .nodes).extend
          ((declaredMaterials labels.graph).map declaredRow) .materials⟩ := by
  have opened :
      Surveys ⟨.code, layout⟩ "type GLTFResult = GLTF & \x7b\n  nodes: \x7b\n"
        ⟨.block .nodes, layout⟩ := by
    have lines :
        "type GLTFResult = GLTF & \x7b\n  nodes: \x7b\n" =
          ("type GLTFResult = GLTF & \x7b" ++ "\n") ++ (Block.nodes.opening ++ "\n") := by
      decide
    rw [lines]
    exact surveys_append (surveys_lineOf (by decide)) (surveys_opening .nodes)
  have between :
      ∀ layout, Surveys ⟨.block .nodes, layout⟩ "  \x7d\n  materials: \x7b\n"
        ⟨.block .materials, layout⟩ := by
    intro layout
    have lines :
        "  \x7d\n  materials: \x7b\n" =
          (Block.nodes.closing ++ "\n") ++ (Block.materials.opening ++ "\n") := by
      decide
    rw [lines]
    exact surveys_append (surveys_closing .nodes) (surveys_opening .materials)
  have closed :
      ∀ layout, Surveys ⟨.block .materials, layout⟩ "  \x7d\n\x7d\n" ⟨.code, layout⟩ := by
    intro layout
    have lines :
        "  \x7d\n\x7d\n" = (Block.materials.closing ++ "\n") ++ ("\x7d" ++ "\n") := by
      decide
    rw [lines]
    exact surveys_append (surveys_closing .materials) (surveys_lineOf (by decide))
  have nodes : Surveys ⟨.block .nodes, layout⟩ (declarations (declaredNodes labels)) _ :=
    surveys_declarations rfl (words_declaredNodes labels)
  have materials :
      ∀ layout,
        Surveys ⟨.block .materials, layout⟩ (declarations (declaredMaterials labels.graph)) _ :=
    fun _ => surveys_declarations rfl (words_declaredMaterials labels.graph)
  exact surveys_append (surveys_append (surveys_append (surveys_append (surveys_append opened
    nodes) (between _)) (materials _)) (closed _)) (surveys_actionTypes labels.graph.clips)

/-- The line that takes names from the component library. -/
theorem surveys_library
    (source : Source) :
    Surveys ⟨.code, layout⟩
      ("import \x7b " ++ ", ".intercalate source.libraryNames ++ " \x7d from '@react-three/drei'\n")
      ⟨.code, layout⟩ := by
  have start : Unmarked "import \x7b ".toList := by
    decide
  have names : Whole '\n' (", ".intercalate source.libraryNames).toList := by
    rw [String.toList_intercalate]
    refine whole_intercalate (by decide) (List.forall_mem_map.mpr fun name listed => ?_)
    exact whole_word (by decide) (words_libraryNames source name listed).1
  have origin : Whole '\n' " \x7d from '@react-three/drei'".toList := by
    decide
  exact surveys_ordinary (by simp) (start.append (whole_append names origin))

/-- Before the components stand the declared rows, if the module is typed. -/
theorem surveys_imports
    (source : Source) :
    Surveys ⟨.code, ⟨[], [], [], false⟩⟩ source.imports
      ⟨.code, ⟨source.layout.nodes, source.layout.materials, [], false⟩⟩ := by
  let empty : Survey := ⟨.code, ⟨[], [], [], false⟩⟩
  have three :
      Surveys empty
        (if source.options.types then "import * as THREE from 'three'\n" else "") empty := by
    cases source.options.types with
    | true => exact surveys_lines ["import * as THREE from 'three'"] (by decide) (by decide)
    | false => exact surveys_empty _
  have react :
      Surveys empty
        (if source.hasInstances then "import React, \x7b useRef, useMemo \x7d from 'react'\n"
          else "import React, \x7b useRef \x7d from 'react'\n") empty := by
    cases source.hasInstances with
    | true =>
        exact surveys_lines ["import React, \x7b useRef, useMemo \x7d from 'react'"] (by decide)
          (by decide)
    | false =>
        exact surveys_lines ["import React, \x7b useRef \x7d from 'react'"] (by decide) (by decide)
  have types :
      Surveys empty
        (if source.options.types then
          "import \x7b GLTF \x7d from 'three-stdlib'\n\n" ++ resultType source.labels
        else "")
        ⟨.code, ⟨source.layout.nodes, source.layout.materials, [], false⟩⟩ := by
    rw [Source.layout]
    cases source.options.types with
    | true =>
        have lines :
            Surveys empty "import \x7b GLTF \x7d from 'three-stdlib'\n\n" empty :=
          surveys_lines ["import \x7b GLTF \x7d from 'three-stdlib'", ""] (by decide) (by decide)
        exact surveys_append lines (surveys_resultType source.labels)
    | false => exact surveys_empty _
  have whole := surveys_append three (surveys_append react (surveys_append
    (surveys_library source) types))
  unfold Source.imports
  simp only [String.append_assoc] at whole ⊢
  exact whole

/-- The line that loads the asset is one line. -/
theorem whole_typedLoad
    (source : Source) :
    Whole '\n' source.typedLoad.toList := by
  have address : Whole '\n' source.address.toList :=
    whole_quoted (by decide) _
  have load : Whole '\n' source.load.toList := by
    unfold Source.load
    split
    next argument _ =>
      simp only [String.toList_append]
      exact whole_append (whole_append (whole_append (whole_append (by decide) address)
        (by decide)) (whole_constant (constant_compact argument))) (by decide)
    next =>
      simp only [String.toList_append]
      exact whole_append (whole_append (by decide) address) (by decide)
  rw [Source.typedLoad, String.toList_append]
  refine whole_append load ?_
  split <;> decide

/-- The line that takes tables from what the asset hook returns. -/
theorem surveys_tables
    (source : Source)
    {tables : String}
    (start : Unmarked ("  const " ++ braced tables ++ " = ").toList) :
    Surveys ⟨.code, layout⟩ (("  const " ++ braced tables ++ " = ") ++ (source.typedLoad ++ "\n"))
      ⟨.code, layout⟩ :=
  surveys_ordinary (by simp) (start.append (whole_typedLoad source))

/-- The map of instances. -/
theorem surveys_instanceEntries
    (fits : Fits source) :
    Surveys ⟨.block .instances, layout⟩ source.instanceEntries
      ⟨.block .instances, layout.extend (source.labels.index.pairs.map instanceRow) .instances⟩ := by
  have shape :
      source.instanceEntries =
        String.join ((source.labels.index.pairs.map instanceRow).map (rowText .instances)) := by
    have blanks : String.ofList (List.replicate Block.instances.margin ' ') = "      " := by
      decide
    have comma : ",\n" = "," ++ "\n" := by
      decide
    unfold Source.instanceEntries rowText instanceRow
    simp only [List.map_map, Function.comp_def, blanks, comma, String.append_assoc]
  rw [shape]
  refine surveys_rows .instances (List.forall_mem_map.mpr fun pair listed => ?_)
    (List.forall_mem_map.mpr fun pair listed => ?_)
  · exact whole_word (by decide) (fits.entries pair listed).1
  · obtain ⟨word, name, reached⟩ := fits.entries pair listed
    refine ⟨whole_word (by decide) word, ?_⟩
    rw [instanceRow, reached, Scene.nodeExpression]
    simp only [String.toList_append]
    exact whole_append (whole_append (by decide) (whole_memberAccess name)) (by decide)

/-- The heading of the component that defines the instances tells that there is one. -/
theorem surveys_instancedHeading
    (types : Bool)
    {nodes materials : List Row} :
    Surveys ⟨.code, ⟨nodes, materials, [], false⟩⟩ (instancedHeading types)
      ⟨.code, ⟨nodes, materials, [], true⟩⟩ := by
  have lines :
      instancedHeading types =
        "\n" ++ (wrapperOpening
          ++ ((if types then "props: " ++ Source.propertiesType else "props") ++ ") \x7b")
          ++ "\n") := by
    cases types <;> decide
  have blank : Surveys ⟨.code, ⟨nodes, materials, [], false⟩⟩ "\n" _ :=
    surveys_lines [""] (by decide) (by decide)
  rw [lines]
  refine surveys_append blank (surveys_wrapper ?_)
  cases types <;> decide

/-- The map of instances with the lines that open and close it. -/
theorem surveys_instanceMap
    (fits : Fits source) :
    Surveys ⟨.code, layout⟩
      (("  const instances = useMemo(\n" ++ "    () => (\x7b\n") ++ (source.instanceEntries
        ++ ("    \x7d),\n" ++ "    [nodes]\n" ++ "  )\n")))
      ⟨.code, layout.extend (source.labels.index.pairs.map instanceRow) .instances⟩ := by
  have opened :
      Surveys ⟨.code, layout⟩ ("  const instances = useMemo(\n" ++ "    () => (\x7b\n")
        ⟨.block .instances, layout⟩ := by
    have lines :
        "  const instances = useMemo(\n" ++ "    () => (\x7b\n" =
          ("  const instances = useMemo(" ++ "\n") ++ (Block.instances.opening ++ "\n") := by
      decide
    rw [lines]
    exact surveys_append (surveys_lineOf (by decide)) (surveys_opening .instances)
  have closed :
      ∀ layout, Surveys ⟨.block .instances, layout⟩ ("    \x7d),\n" ++ "    [nodes]\n" ++ "  )\n")
        ⟨.code, layout⟩ := by
    intro layout
    have lines :
        "    \x7d),\n" ++ "    [nodes]\n" ++ "  )\n" =
          (Block.instances.closing ++ "\n")
            ++ String.join (["    [nodes]", "  )"].map (· ++ "\n")) := by
      decide
    rw [lines]
    exact surveys_append (surveys_closing .instances) (surveys_lines _ rfl (by decide))
  exact surveys_append opened (surveys_append (surveys_instanceEntries fits) (closed _))

/-- The component that defines the instances holds their map. -/
theorem surveys_instancedModel
    (fits : Fits source)
    {nodes materials : List Row} :
    Surveys ⟨.code, ⟨nodes, materials, [], false⟩⟩ source.instancedModel
      ⟨.code, ⟨nodes, materials, source.labels.index.pairs.map instanceRow, true⟩⟩ := by
  let before : Layout := ⟨nodes, materials, [], true⟩
  let after : Layout := ⟨nodes, materials, source.labels.index.pairs.map instanceRow, true⟩
  have table :
      Surveys ⟨.code, before⟩
        (("  const " ++ braced " nodes " ++ " = ") ++ (source.typedLoad ++ "\n"))
        ⟨.code, before⟩ :=
    surveys_tables source (by decide)
  have map : Surveys ⟨.code, before⟩ _ ⟨.code, after⟩ :=
    surveys_instanceMap fits
  have drawn :
      Surveys ⟨.code, after⟩
        (("  return (\n" ++ "    <Merged meshes=" ++ braced "instances" ++ " "
          ++ braced "...props" ++ ">\n" ++ "      "
          ++ braced ("(instances) => <Model instances=" ++ braced "instances" ++ " />")
          ++ "\n" ++ "    </Merged>\n" ++ "  )\n") ++ "\x7d\n")
        ⟨.code, after⟩ :=
    surveys_lines
      ["  return (", "    <Merged meshes=\x7binstances\x7d \x7b...props\x7d>",
        "      \x7b(instances) => <Model instances=\x7binstances\x7d />\x7d", "    </Merged>", "  )", "\x7d"]
      (by decide) (by decide)
  have whole := surveys_append (surveys_instancedHeading source.options.types)
    (surveys_append table (surveys_append map drawn))
  rw [instancedModel_eq, instancedLines]
  simp only [String.append_assoc] at whole ⊢
  exact whole

/-- The heading of the component adds nothing to the layout. -/
theorem surveys_modelHeading
    (source : Source) :
    Surveys ⟨.code, layout⟩ (modelHeading source) ⟨.code, layout⟩ := by
  unfold modelHeading Source.parameters
  cases source.hasInstances <;> cases source.options.types
  · exact surveys_lines ["", "export default function Model(props) \x7b"] (by decide) (by decide)
  · exact surveys_lines
      ["", "export default function Model(props: JSX.IntrinsicElements['group']) \x7b"] (by decide)
      (by decide)
  · exact surveys_lines ["", "function Model(\x7b instances, ...props \x7d) \x7b"] (by decide)
      (by decide)
  · exact surveys_lines
      ["", "function Model(\x7b instances, ...props \x7d: \x7b instances: any \x7d & JSX.IntrinsicElements['group']) \x7b"]
      (by decide) (by decide)

/-- The lines of the component before its markup. -/
def openingLines (source : Source) : String :=
  ("  const group = " ++ (if source.options.types then "useRef<THREE.Group>()" else "useRef()")
      ++ "\n")
    ++ ((("  const "
        ++ braced (if source.labels.animated then " nodes, materials, animations "
          else " nodes, materials ")
        ++ " = ")
      ++ (source.typedLoad ++ "\n"))
        ++ ((if source.labels.animated then
            "  const " ++ braced " actions " ++ " = useAnimations"
              ++ (if source.options.types then "<GLTFActions>" else "") ++ "(animations, group)"
              ++ "\n"
          else "")
          ++ "  return (\n"))

/-- The lines in front of the markup add nothing to the layout. -/
theorem surveys_openingLines
    (source : Source) :
    Surveys ⟨.code, layout⟩ (openingLines source) ⟨.code, layout⟩ := by
  have group :
      Surveys ⟨.code, layout⟩
        ("  const group = " ++ (if source.options.types then "useRef<THREE.Group>()" else "useRef()")
          ++ "\n") ⟨.code, layout⟩ := by
    cases source.options.types with
    | true => exact surveys_lines ["  const group = useRef<THREE.Group>()"] (by decide) (by decide)
    | false => exact surveys_lines ["  const group = useRef()"] (by decide) (by decide)
  have tables :
      Surveys ⟨.code, layout⟩
        (("  const "
          ++ braced (if source.labels.animated then " nodes, materials, animations "
            else " nodes, materials ")
          ++ " = ") ++ (source.typedLoad ++ "\n")) ⟨.code, layout⟩ := by
    cases source.labels.animated with
    | true => exact surveys_tables source (by decide)
    | false => exact surveys_tables source (by decide)
  have actions :
      Surveys ⟨.code, layout⟩
        (if source.labels.animated then
          "  const " ++ braced " actions " ++ " = useAnimations"
            ++ (if source.options.types then "<GLTFActions>" else "") ++ "(animations, group)"
            ++ "\n"
        else "") ⟨.code, layout⟩ := by
    cases source.labels.animated with
    | true =>
        cases source.options.types with
        | true =>
            exact surveys_lines
              ["  const \x7b actions \x7d = useAnimations<GLTFActions>(animations, group)"] (by decide)
              (by decide)
        | false =>
            exact surveys_lines ["  const \x7b actions \x7d = useAnimations(animations, group)"]
              (by decide) (by decide)
    | false => exact surveys_empty _
  have returned : Surveys ⟨.code, layout⟩ "  return (\n" ⟨.code, layout⟩ :=
    surveys_lines ["  return ("] (by decide) (by decide)
  exact surveys_append group (surveys_append tables (surveys_append actions returned))

/-- A module up to the line that begins its markup. -/
def moduleOpening (source : Source) : String :=
  source.imports ++ ((if source.hasInstances then source.instancedModel else "")
    ++ (modelHeading source ++ openingLines source))

/-- All that stands before the markup is surveyed as the layout of the module. -/
theorem surveys_moduleOpening
    (fits : Fits source) :
    Surveys ⟨.code, ⟨[], [], [], false⟩⟩ (moduleOpening source) ⟨.code, source.layout⟩ := by
  have wrapper :
      Surveys ⟨.code, ⟨source.layout.nodes, source.layout.materials, [], false⟩⟩
        (if source.hasInstances then source.instancedModel else "") ⟨.code, source.layout⟩ := by
    rw [Source.layout]
    cases source.hasInstances with
    | true => exact surveys_instancedModel fits
    | false => exact surveys_empty _
  exact surveys_append (surveys_imports source) (surveys_append wrapper
    (surveys_append (surveys_modelHeading source) (surveys_openingLines source)))

end Parts

section Modules

variable {source : Source}

/-- What stands behind the markup. -/
def markupClosing (source : Source) : String :=
  "    </group>\n" ++ ("  )\n" ++ ("\x7d\n" ++ preloadCall source))

/-- The line that begins the markup, as it is written. -/
def markupLine : String :=
  "    <group ref=" ++ braced "group" ++ " " ++ braced "...props" ++ " dispose=" ++ braced "null"
    ++ ">\n"

theorem toList_markupLine :
    markupLine.toList = markupOpening.toList ++ ['\n'] := by
  decide

/-- The lines of the component are those before the markup, the markup and those after it. -/
theorem modelLines_eq
    (source : Source) :
    modelLines source =
      openingLines source ++ (markupLine ++ (source.body ++ ("    </group>\n" ++ "  )\n"))) := by
  unfold modelLines openingLines markupLine
  simp only [String.append_assoc]

/-- The text is parted at the line that opens the markup. -/
theorem readHalves?_text
    (fits : Fits source) :
    readHalves? source.text =
      some (source.layout, source.body.toList ++ (markupClosing source).toList) := by
  have shape :
      "\n\n" ++ (source.imports
          ++ ((if source.hasInstances then source.instancedModel else "") ++ source.model)) =
        "\n\n" ++ (moduleOpening source
          ++ (markupLine ++ (source.body ++ markupClosing source))) := by
    rw [model_eq, modelLines_eq, moduleOpening, markupClosing]
    simp only [String.append_assoc]
  have blank : Surveys ⟨.code, ⟨[], [], [], false⟩⟩ "\n\n" _ :=
    surveys_lines ["", ""] (by decide) (by decide)
  have opening := surveys_append blank (surveys_moduleOpening fits)
  have goes : Stage.code ≠ .markup := Stage.noConfusion
  rw [readHalves?, afterComment_text, shape, ← String.append_assoc, String.toList_append,
    scanFrom?_of_run opening goes, String.toList_append, toList_markupLine, List.append_assoc,
    String.toList_append]
  exact scanFrom?_markupOpening _ _

/-- The layout of a module is read from its text. -/
theorem readLayout?_text
    (fits : Fits source) :
    readLayout? source.text = some source.layout := by
  rw [readLayout?, readHalves?_text fits]
  rfl

/-- The elements of the body are read from the text of a module. -/
theorem readBody?_text
    (fits : Fits source)
    {elements : List Element}
    (legible : Legible elements)
    (body : source.body = elementsText bodyDepth elements) :
    readBody? source.text = some elements := by
  have tags := Reader.run_elements elements legible bodyDepth []
  have nested := Nesting.run_elements elements bodyDepth [] []
  rw [List.nil_append] at tags
  have other : .closes (2 * (bodyDepth - 1)) "group" ∉ tagsOf bodyDepth elements :=
    not_mem_tagsOf elements (by decide) "group"
  have bracket :
      Reader.run ⟨.line 0, tagsOf bodyDepth elements⟩ "    </group".toList =
        some ⟨.closing 4 "group".toList, tagsOf bodyDepth elements⟩ := by
    rfl
  have ending :
      (markupClosing source).toList =
        "    </group".toList ++ '>' :: ("\n" ++ ("  )\n" ++ ("\x7d\n" ++ preloadCall source))).toList := by
    simp [markupClosing]
  rw [readBody?, readHalves?_text fits, Option.bind_some, body, tagsBefore?_of_run tags other,
    ending, tagsBefore?_of_run bracket other, tagsBefore?]
  have closed :
      Reader.take? ⟨.closing 4 "group".toList, tagsOf bodyDepth elements⟩ '>' =
        some ⟨.ended, tagsOf bodyDepth elements ++ [.closes (2 * (bodyDepth - 1)) "group"]⟩ := by
    simp [Reader.take?, isNameCharacter, bodyDepth]
  have last :
      (tagsOf bodyDepth elements ++ [Tag.closes (2 * (bodyDepth - 1)) "group"]).getLast? =
        some (.closes (2 * (bodyDepth - 1)) "group") :=
    List.getLast?_concat
  rw [closed, Option.bind_some, if_pos last, List.dropLast_concat, Option.bind_some, nest]
  rw [List.length_nil, Nat.add_zero, List.nil_append] at nested
  rw [nested]
  rfl

/-- What is written around the elements of a scene is read as these elements, in their layout. -/
theorem reads_of_elementsOf
    {graph : SceneGraph}
    {options : Options}
    {labels : Labels}
    (index : labels.index = InstanceIndex.analyze graph options)
    {elements : List Element}
    (written : elementsOf labels SceneGraph.root = .ok elements)
    (fileName : String) :
    let source : Source := ⟨labels, fileName, elementsText bodyDepth elements⟩
    readBody? source.text = some elements ∧ readLayout? source.text = some source.layout := by
  intro source
  have stand := elementsOf_stands written
  have fits : Fits source := fits_of_stands index stand fileName bodyDepth
  have legible : Legible elements :=
    legible_of_forall₂ (fun pair listed => isName_analyze (index ▸ listed)) stand
  exact ⟨readBody?_text fits legible rfl, readLayout?_text fits⟩

/-- A conversion that succeeds is read as the elements of the scene that it leaves, in their
layout. -/
theorem convert_reads
    {fileName : String}
    {graph : SceneGraph}
    {options : Options}
    {text : String}
    (converted : (convert fileName graph options).result = .ok text) :
    let labels :=
      Labels.ofGraph (convert fileName graph options).graph
        (InstanceIndex.analyze graph options) options
    ∃ elements,
      elementsOf labels SceneGraph.root = .ok elements ∧
        readBody? text = some elements ∧
        readLayout? text =
          some (Source.layout ⟨labels, fileName, elementsText bodyDepth elements⟩) := by
  obtain ⟨decided, elements, _, tree, written, shape⟩ := convert_spec converted
  rw [tree, shape]
  exact ⟨elements, written, reads_of_elementsOf rfl written fileName⟩

/-- The text of a conversion is read as the elements that were written, in their layout. -/
theorem Rendered.reads
    {fileName : String}
    {graph : SceneGraph}
    {options : Options}
    {text : String}
    {final : Pruning.State}
    {elements : List Element}
    (rendered : Rendered fileName graph options text final elements) :
    readBody? text = some elements ∧
      readLayout? text = some (sourceOf fileName graph options elements).layout := by
  rw [rendered.text]
  exact reads_of_elementsOf rfl rendered.written fileName

end Modules

end SceneMarkup.Component
