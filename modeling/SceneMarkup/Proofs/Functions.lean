import Mathlib.Tactic
import SceneMarkup.Proofs.Mentions

namespace SceneMarkup.Component

open Scene Markup

/-!
# What the functions of a module bind and use

A component is a heading that binds its parameters, lines that bind tables and
references or only use what is bound, and a brace.  Each kind of line is read by
itself, in any function that stands around it.
-/

section Lines

/-- What the reader knows in a function, `depth` brackets deep. -/
def inside
    (depth : Nat)
    (imports types : List String)
    (outer scope : Scope)
    (finished : List Scope) :
    Reading :=
  ⟨.used, depth, imports, types, outer, some scope, finished⟩

/-- Lines of a function add bindings, and uses of shared names only if they are allowed. -/
def Adds (allowed binds : List String) (text : String) : Prop :=
  ∃ names, Covers allowed names ∧
    ∀ imports types outer scope finished,
      Cursor.run ⟨.code 0, inside 1 imports types outer scope finished⟩ text.toList =
        ⟨.code 0,
          inside 1 imports types outer ⟨binds ++ scope.binds, names ++ scope.uses⟩ finished⟩

variable {allowed : List String}

/-- Two texts bind the names of both. -/
theorem adds_append
    {binds others : List String}
    {first second : String}
    (before : Adds allowed binds first)
    (after : Adds allowed others second) :
    Adds allowed (others ++ binds) (first ++ second) := by
  obtain ⟨names, covered, reads⟩ := before
  obtain ⟨later, laterCovered, readsOn⟩ := after
  refine ⟨later ++ names, covers_append laterCovered covered, ?_⟩
  intro imports types outer scope finished
  rw [String.toList_append, Cursor.run_append, reads, readsOn, List.append_assoc,
    List.append_assoc]

theorem Adds.mono
    {few binds : List String}
    {text : String}
    (adds : Adds few binds text)
    (known : ∀ name ∈ few, name ∈ allowed) :
    Adds allowed binds text := by
  obtain ⟨names, covered, reads⟩ := adds
  exact ⟨names, covered.mono known, reads⟩

/-- A passage binds nothing. -/
theorem adds_of_passes
    {text : String}
    (passes : Passes allowed Place.Rests text.toList Place.Rests) :
    Adds allowed [] text := by
  obtain ⟨_, names, rfl, covered, reads⟩ := passes (.code 0) rfl
  refine ⟨names, covered, fun imports types outer scope finished => ?_⟩
  exact reads _ ⟨rfl, .inl Nat.one_pos⟩

/-- Lines around a passage that stands in their brackets. -/
theorem adds_around
    {depth : Nat}
    (deep : 0 < depth)
    {opening body closing : String}
    {binds before after : List String}
    (covered : Covers allowed (after ++ before))
    (opens :
      ∀ imports types outer scope finished,
        Cursor.run ⟨.code 0, inside 1 imports types outer scope finished⟩ opening.toList =
          ⟨.code 0, inside depth imports types outer
            ⟨binds ++ scope.binds, before ++ scope.uses⟩ finished⟩)
    (passes : Passes allowed Place.Rests body.toList Place.Rests)
    (closes :
      ∀ imports types outer scope finished,
        Cursor.run ⟨.code 0, inside depth imports types outer scope finished⟩ closing.toList =
          ⟨.code 0, inside 1 imports types outer ⟨scope.binds, after ++ scope.uses⟩ finished⟩) :
    Adds allowed binds (opening ++ (body ++ closing)) := by
  obtain ⟨_, names, rfl, within, reads⟩ := passes (.code 0) rfl
  obtain ⟨afterCovered, beforeCovered⟩ := List.forall_mem_append.mp covered
  refine ⟨after ++ (names ++ before),
    covers_append afterCovered (covers_append within beforeCovered), ?_⟩
  intro imports types outer scope finished
  have steady :
      (inside depth imports types outer
        ⟨binds ++ scope.binds, before ++ scope.uses⟩ finished).Steady :=
    ⟨rfl, .inl deep⟩
  have used :
      (inside depth imports types outer
          ⟨binds ++ scope.binds, before ++ scope.uses⟩ finished).withUses names =
        inside depth imports types outer
          ⟨binds ++ scope.binds, names ++ (before ++ scope.uses)⟩ finished :=
    rfl
  rw [String.toList_append, Cursor.run_append, opens, String.toList_append, Cursor.run_append,
    reads _ steady, used, closes, List.append_assoc, List.append_assoc]

/-- The call that loads the asset. -/
theorem passes_load
    (source : Source) :
    Passes allowed Place.Rests source.load.toList Place.Rests := by
  have hook : IsWord "useGLTF".toList ∧ Harmless [] "useGLTF" := by
    decide
  have name : Passes allowed Place.Rests "useGLTF".toList (Place.Ready allowed) :=
    (passes_word hook.1 hook.2.widen).imp (fun _ rests => rests) fun _ => ready_of_whole
  have address : Passes allowed Place.Rests source.address.toList Place.Rests :=
    passes_quoted (assetAddress source.fileName)
  cases decoder : source.options.draco with
  | none =>
      have shape :
          source.load.toList =
            "useGLTF".toList ++ ('(' :: source.address.toList ++ [')']) := by
        simp [Source.load, decoder]
      rw [shape]
      exact passes_append name (passes_parentheses address.ready)
  | some argument =>
      have shape :
          source.load.toList =
            "useGLTF".toList
              ++ ('(' :: (source.address.toList ++ (", ".toList ++ argument.compact.toList))
                ++ [')']) := by
        simp [Source.load, decoder]
      have comma : Passes allowed (Place.Ready allowed) ", ".toList Place.Rests :=
        passes_breaks (by decide) (by decide)
      rw [shape]
      exact passes_append name (passes_parentheses (passes_append address.ready
        (passes_append comma (passes_constantText (constant_compact argument)))))

/-- With types the line that loads the asset uses the type of the asset. -/
theorem passes_typedLoad
    {source : Source}
    (result : source.options.types = true → "GLTFResult" ∈ allowed) :
    Passes allowed Place.Rests (source.typedLoad ++ "\n").toList Place.Rests := by
  have ended : Passes allowed (Place.Ready allowed) "\n".toList Place.Rests :=
    passes_breaks (by decide) (by decide)
  rw [String.toList_append]
  refine passes_append ?_ ended
  unfold Source.typedLoad
  split
  next typed =>
    have blank : Passes allowed (Place.Ready allowed) " ".toList Place.Rests :=
      passes_breaks (by decide) (by decide)
    have conversion : IsWord "as".toList ∧ Harmless [] "as" := by
      decide
    have as : Passes allowed Place.Rests "as".toList (Place.Ready allowed) :=
      (passes_word conversion.1 conversion.2.widen).imp (fun _ rests => rests)
        fun _ => ready_of_whole
    have type : Passes allowed Place.Rests "GLTFResult".toList (Place.Ready allowed) :=
      (passes_word (by decide) ⟨by decide, fun _ => result typed⟩).imp (fun _ rests => rests)
        fun _ => ready_of_whole
    have shape :
        " as GLTFResult".toList =
          " ".toList ++ ("as".toList ++ (" ".toList ++ "GLTFResult".toList)) := by
      decide
    rw [String.toList_append, shape]
    exact passes_append (passes_load source).ready (passes_append blank (passes_append as
      (passes_append blank type)))
  next =>
    rw [String.append_empty]
    exact (passes_load source).ready

/-- The line that refers to the group. -/
theorem adds_group
    (types : Bool) :
    Adds (if types then ["THREE"] else []) ["group"]
      ("  const group = " ++ (if types then "useRef<THREE.Group>()" else "useRef()")
        ++ "\n") := by
  cases types with
  | true => exact ⟨["THREE", "useRef"], by decide, fun _ _ _ _ _ => by cbv⟩
  | false => exact ⟨["useRef"], by decide, fun _ _ _ _ _ => by cbv⟩

/-- What is bound to the tables of the asset. -/
theorem adds_tables
    (animated : Bool) :
    Adds [] (if animated then ["animations", "materials", "nodes"] else ["materials", "nodes"])
      ("  const "
        ++ braced (if animated then " nodes, materials, animations " else " nodes, materials ")
        ++ " = ") := by
  cases animated with
  | true => exact ⟨[], by decide, fun _ _ _ _ _ => by cbv⟩
  | false => exact ⟨[], by decide, fun _ _ _ _ _ => by cbv⟩

/-- The line that binds the actions. -/
theorem adds_actions
    (types : Bool) :
    Adds ("useAnimations" :: "animations" :: if types then ["GLTFActions"] else []) ["actions"]
      ("  const " ++ braced " actions " ++ " = useAnimations"
        ++ (if types then "<GLTFActions>" else "") ++ "(animations, group)" ++ "\n") := by
  -- Short literals are read faster than one long text.
  simp only [Adds, braced, String.toList_append]
  cases types with
  | true =>
      exact ⟨["group", "animations", "GLTFActions", "useAnimations"], by decide,
        fun _ _ _ _ _ => by cbv⟩
  | false =>
      exact ⟨["group", "animations", "useAnimations"], by decide, fun _ _ _ _ _ => by cbv⟩

/-- The lines that return the markup. -/
theorem adds_markup
    {body : String}
    (passes : Passes allowed Place.Rests body.toList Place.Rests) :
    Adds allowed []
      (("  return (\n" ++ "    <group ref=" ++ braced "group" ++ " " ++ braced "...props"
          ++ " dispose=" ++ braced "null" ++ ">\n")
        ++ (body ++ ("    </group>\n" ++ "  )\n"))) := by
  have unshared :
      Covers [] (["group"]
        ++ ["null", "dispose", "props", "group", "ref", "group", "return"]) := by
    decide
  refine adds_around Nat.two_pos (unshared.mono (List.forall_mem_nil _)) ?_ passes ?_
  · exact fun _ _ _ _ _ => by cbv
  · exact fun _ _ _ _ _ => by cbv

/-- The lines that bind the instances to their meshes. -/
theorem adds_instances
    {entries : String}
    (memo : "useMemo" ∈ allowed)
    (nodes : "nodes" ∈ allowed)
    (passes : Passes allowed Place.Rests entries.toList Place.Rests) :
    Adds allowed ["instances"]
      (("  const instances = useMemo(\n" ++ "    () => (\x7b\n")
        ++ (entries ++ ("    \x7d),\n" ++ "    [nodes]\n" ++ "  )\n"))) := by
  have covered : Covers ["useMemo", "nodes"] (["nodes"] ++ ["useMemo"]) := by
    decide
  have known : ∀ name ∈ ["useMemo", "nodes"], name ∈ allowed :=
    List.forall_mem_cons.mpr ⟨memo, List.forall_mem_singleton.mpr nodes⟩
  have four : 0 < 4 := by
    decide
  refine adds_around four (covered.mono known) ?_ passes ?_
  · exact fun _ _ _ _ _ => by cbv
  · exact fun _ _ _ _ _ => by cbv

/-- The lines that draw the model with the instances. -/
theorem adds_merged :
    Adds ["Merged", "instances"] []
      ("  return (\n" ++ "    <Merged meshes=" ++ braced "instances" ++ " " ++ braced "...props"
        ++ ">\n" ++ "      "
        ++ braced ("(instances) => <Model instances=" ++ braced "instances" ++ " />")
        ++ "\n" ++ "    </Merged>\n" ++ "  )\n") := by
  simp only [Adds, braced, String.toList_append]
  exact ⟨["Merged", "instances", "instances", "Model", "instances", "props", "instances", "meshes",
    "Merged", "return"], by decide, fun _ _ _ _ _ => by cbv⟩

end Lines

section Functions

/-- What the reader knows outside of functions, `depth` brackets deep; `uses` are used there. -/
def outside
    (depth : Nat)
    (imports types uses : List String)
    (finished : List Scope) :
    Reading :=
  ⟨.used, depth, imports, types, ⟨[], uses⟩, none, finished⟩

/-- One more function is found.  The shared names that it uses are known to the module or bound in
the function, and those used around it are known. -/
def Defines (known : List String) (text : String) : Prop :=
  ∃ scope around, Covers (known ++ scope.binds) scope.uses ∧ Covers known around ∧
    ∀ imports types uses finished,
      Cursor.run ⟨.code 0, outside 0 imports types uses finished⟩ text.toList =
        ⟨.code 0, outside 0 imports types (around ++ uses) (scope :: finished)⟩

/-- The text opens a function, which begins with its parameters bound. -/
def Opens (binds : List String) (text : String) : Prop :=
  ∃ names around, Covers [] names ∧ Covers [] around ∧
    ∀ imports types uses finished,
      Cursor.run ⟨.code 0, outside 0 imports types uses finished⟩ text.toList =
        ⟨.code 0, inside 1 imports types ⟨[], around ++ uses⟩ ⟨binds, names⟩ finished⟩

variable {known : List String}

/-- A function is defined by its opening and by lines that use what they bind or what is known. -/
theorem defines_function
    {parameters binds : List String}
    {opening lines : String}
    (opens : Opens parameters opening)
    (adds : Adds (known ++ (binds ++ parameters)) binds lines) :
    Defines known (opening ++ (lines ++ "\x7d\n")) := by
  obtain ⟨names, around, namesCovered, aroundCovered, reads⟩ := opens
  obtain ⟨more, covered, readsOn⟩ := adds
  refine ⟨⟨binds ++ parameters, more ++ names⟩, around, ?_, ?_, ?_⟩
  · exact covers_append covered (namesCovered.mono (List.forall_mem_nil _))
  · exact aroundCovered.mono (List.forall_mem_nil _)
  · intro imports types uses finished
    have closed :
        ∀ outer scope,
          Cursor.run ⟨.code 0, inside 1 imports types outer scope finished⟩ "\x7d\n".toList =
            ⟨.code 0, ⟨.used, 0, imports, types, outer, none, scope :: finished⟩⟩ :=
      fun _ _ => by cbv
    rw [String.toList_append, Cursor.run_append, reads, String.toList_append, Cursor.run_append,
      readsOn, closed]
    rfl

/-- The names that a component's parameters bind. -/
def parametersOf (hasInstances types : Bool) : List String :=
  if hasInstances then ["props", "instances", "Model"]
  else if types then ["Model"]
  else ["props", "Model"]

/-- The heading of the component. -/
def modelHeading (source : Source) : String :=
  "\n" ++ (if source.hasInstances then "" else "export default ")
    ++ "function Model(" ++ source.parameters ++ ") \x7b\n"

/-- The heading of the component binds its parameters. -/
theorem opens_model
    (source : Source) :
    Opens (parametersOf source.hasInstances source.options.types) (modelHeading source) := by
  unfold modelHeading Source.parameters
  simp only [Opens, String.toList_append]
  cases source.hasInstances <;> cases source.options.types
  · exact ⟨[], ["default", "export"], by decide, by decide, fun _ _ _ _ => by cbv⟩
  · exact ⟨["JSX"], ["default", "export"], by decide, by decide, fun _ _ _ _ => by cbv⟩
  · exact ⟨[], [], by decide, by decide, fun _ _ _ _ => by cbv⟩
  · exact ⟨["JSX", "any"], [], by decide, by decide, fun _ _ _ _ => by cbv⟩

/-- The heading of the component that defines the instances. -/
def instancedHeading (types : Bool) : String :=
  "\nexport default function InstancedModel("
    ++ (if types then "props: " ++ Source.propertiesType else "props") ++ ") \x7b\n"

/-- The heading of the wrapper binds its parameters. -/
theorem opens_instancedModel
    (types : Bool) :
    Opens (if types then ["InstancedModel"] else ["props", "InstancedModel"])
      (instancedHeading types) := by
  unfold instancedHeading
  simp only [Opens, String.toList_append]
  cases types with
  | true =>
      exact ⟨["JSX"], ["default", "export"], by decide, by decide, fun _ _ _ _ => by cbv⟩
  | false => exact ⟨[], ["default", "export"], by decide, by decide, fun _ _ _ _ => by cbv⟩

/-- The lines that map instances to nodes. -/
theorem passes_instanceEntries
    {source : Source}
    {allowed : List String}
    (nodes : "nodes" ∈ allowed)
    (entries :
      ∀ pair ∈ source.labels.index.pairs,
        IsWord pair.name.toList ∧ ∃ name, pair.node = Scene.nodeExpression name) :
    Passes allowed Place.Rests source.instanceEntries.toList Place.Rests := by
  refine passes_join fun part listed => ?_
  obtain ⟨pair, member, rfl⟩ := List.mem_map.mp listed
  obtain ⟨isWord, name, reached⟩ := entries pair member
  have shape :
      ("      " ++ pair.name ++ ": " ++ pair.node ++ ",\n").toList =
        "      ".toList ++ ((pair.name.toList ++ [':'])
          ++ (" ".toList ++ ((Scene.nodeExpression name).toList ++ ",\n".toList))) := by
    simp [reached]
  have blanks : Passes allowed (Place.Ready allowed) "      ".toList Place.Rests :=
    passes_breaks (by decide) (by decide)
  have blank : Passes allowed (Place.Ready allowed) " ".toList Place.Rests :=
    passes_breaks (by decide) (by decide)
  have ended : Passes allowed (Place.Ready allowed) ",\n".toList Place.Rests :=
    passes_breaks (by decide) (by decide)
  have node : Passes allowed Place.Rests _ (Place.Ready allowed) :=
    (passes_nodeExpression nodes name).imp (fun _ rests => rests) fun _ => ready_of_whole
  rw [shape]
  exact (passes_append blanks (passes_append (passes_key isWord).ready
    (passes_append blank (passes_append node ended)))).imp (fun _ => ready_of_rests)
      fun _ rests => rests

end Functions

end SceneMarkup.Component
