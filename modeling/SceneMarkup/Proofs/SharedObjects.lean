import SceneMarkup.Proofs.Mirroring
import SceneMarkup.Proofs.Naming
import SceneMarkup.Proofs.Unrolling

namespace SceneMarkup.Loading

open Scene (NodeKind MorphTargets)

/-!
# Objects of a mesh that several nodes draw

The objects of a mesh are made once and kept.  A walk never changes what is kept,
so every node that draws the mesh gets the same objects, in the same order, changed
only in what the node itself decides: the number of the use behind their names, the
class of what is a plain mesh, and the weights of their shapes.
-/

section Uses

/-- What stands behind the names of the objects when a mesh is used: the number of the use, unless
no other node draws the mesh. -/
def useMark (source : Source) (index use : Nat) : String :=
  if drawCount source index ≤ 1 then "" else "_instance_" ++ toString use

/-- The weight of a shape when a node draws a mesh.  If the node has weights, those of the mesh do
not count, and what no weight is given for is zero. -/
def influenceAt (node : Gltf.Node) (mesh : Gltf.Mesh) (place : Nat) : Float :=
  match node.weights, mesh.weights with
  | some weights, _ => (weights[place]?.map (·.toFloat)).getD 0.0
  | none, some weights => (weights[place]?.map (·.toFloat)).getD 0.0
  | none, none => 0.0

/-- The class of a plain mesh as a node draws it. -/
def meshKind (source : Source) (node : Gltf.Node) : NodeKind :=
  match copyCount? source node, node.skin with
  | some count, _ => .instancedMesh count
  | none, some _ => .skinnedMesh
  | none, none => .mesh

/-- An object is one that is kept for a mesh, as a node uses it. -/
structure UsedAs
    (source : Source)
    (node : Gltf.Node)
    (mesh : Gltf.Mesh)
    (mark : String)
    (kept object : Scene.Node) :
    Prop where
  name : object.name = kept.name ++ mark
  kind : object.kind = if kept.kind = .mesh then meshKind source node else kept.kind
  shapes :
    object.morphTargets =
      kept.morphTargets.map fun morph =>
        { morph with influences := (List.range morph.names.length).map (influenceAt node mesh) }
  others :
    object =
      { kept with
        name := object.name
        kind := object.kind
        morphTargets := object.morphTargets }

/-- A node draws the mesh at a place. -/
def drawsAt (source : Source) (index node : Nat) : Bool :=
  (meshOf? source (nodeAt source node)).map (·.1) == some index

/-- A node changes the kind of plain meshes only. -/
theorem usedKind_eq
    (source : Source)
    (node : Gltf.Node)
    (kind : NodeKind) :
    usedKind source node kind = if kind = .mesh then meshKind source node else kind := by
  unfold usedKind meshKind
  cases kind with
  | mesh => cases copyCount? source node <;> cases node.skin <;> rfl
  | _ => rfl

/-- Weights are laid over shapes that are not blended in, as far as there are any. -/
theorem weighted_replicate
    (count : Nat)
    (weights : List Float32) :
    weighted (List.replicate count 0.0) weights =
      (List.range count).map fun place => (weights[place]?.map (·.toFloat)).getD 0.0 := by
  induction count generalizing weights with
  | zero => rfl
  | succ fewer ih =>
      rw [List.replicate_succ, List.range_succ_eq_map, List.map_cons, List.map_map]
      cases weights with
      | nil =>
          rw [weighted]
          · simp [Function.comp_def]
          · rintro _ _ _ _ _ ⟨⟩
      | cons weight rest =>
          rw [weighted, ih]
          rfl

/-- The shapes of a mesh are blended with the weights of the node, else with those of the mesh. -/
theorem blended_shapesOf
    (extras : Json.Members)
    (count : Nat)
    (node : Gltf.Node)
    (mesh : Gltf.Mesh) :
    (shapesOf extras count).map (blended (node.weights.orElse fun _ => mesh.weights)) =
      (shapesOf extras count).map fun morph =>
        { morph with influences := (List.range morph.names.length).map (influenceAt node mesh) } := by
  unfold shapesOf
  split
  · rfl
  · have names : (shapeNames extras count).length = count := by
      unfold shapeNames
      split
      next listed _ =>
        split
        next same => rw [List.length_map, same]
        next => rw [List.length_map, List.length_range]
      next => rw [List.length_map, List.length_range]
    simp only [Option.map_some, names]
    unfold blended influenceAt
    cases node.weights with
    | some weights => simp [weighted_replicate]
    | none =>
        cases mesh.weights with
        | some weights => simp [weighted_replicate]
        | none => simp

/-- What is kept for a primitive is used as the node decides. -/
theorem usedAs_of_portrays
    (source : Source)
    (node : Gltf.Node)
    (mesh : Gltf.Mesh)
    (mark : String)
    {extras : Json.Members}
    {primitive : Gltf.Primitive}
    {kept : Scene.Node}
    (portrays : Portrays extras primitive kept) :
    UsedAs source node mesh mark kept
      { usedObject source node mesh kept with name := kept.name ++ mark } := by
  obtain ⟨name, geometry, material, rfl⟩ := portrays
  exact ⟨rfl, usedKind_eq source node _, blended_shapesOf extras _ node mesh, rfl⟩

end Uses

section Counting

variable {source : Source} {registry : Registry}

/-- Steps that leave the numbers of uses alone. -/
def Unused (step : Building α) : Prop :=
  ∀ registry, (step.run registry).2.uses = registry.uses

/-- A step that only claims names counts no use. -/
theorem Claims.unused
    {step : Building α}
    {fits : α → List String → Prop}
    (claims : Claims step fits) :
    Unused step := by
  intro registry
  obtain ⟨_, _, _, _, _, uses⟩ := claims registry
  exact uses

/-- Taking the objects of a mesh counts no use. -/
theorem unused_meshObjects
    (index : Nat)
    (mesh : Gltf.Mesh) :
    Unused (meshObjects source index mesh) := by
  intro registry
  cases found : Registry.find? registry.meshes index with
  | some built =>
      simp only [meshObjects, StateT.run_bind, StateT.run_get, pure_bind, found]
      rfl
  | none =>
      have made := (@claims_primitiveObjects source index mesh).unused registry
      simp only [meshObjects, StateT.run_bind, StateT.run_get, pure_bind, found]
      exact made

/-- A camera counts no use. -/
theorem unused_placedCamera (node : Gltf.Node) : Unused (placedCamera source node) := by
  unfold placedCamera cameraObject
  split
  next camera _ =>
    split
    · exact fun _ => rfl
    · exact fun _ => rfl
  next => exact fun _ => rfl

/-- A light counts no use. -/
theorem unused_placedLight (node : Gltf.Node) : Unused (placedLight source node) := by
  unfold placedLight
  split
  · exact fun _ => rfl
  · exact fun _ => rfl

/-- The objects of a mesh when they are used once more. -/
def marked (mark : String) (objects : List Scene.Node) : List Scene.Node :=
  objects.map fun object => { object with name := object.name ++ mark }

/-- A use is marked by the number of uses before it and counted where a mesh has several. -/
theorem run_numberedUse
    (index : Nat)
    (objects : List Scene.Node) :
    (numberedUse source index objects).run registry =
      (marked (useMark source index (usesOf registry index)) objects,
        if drawCount source index ≤ 1 then registry
        else
          { registry with
            uses := Registry.assign registry.uses index (usesOf registry index + 1) }) := by
  unfold numberedUse useMark marked
  split
  · simp only [String.append_empty, List.map_id']
    rfl
  · simp only [String.append_assoc]
    rfl

/-- The objects that are kept for a mesh are used once more, under the number of the use. -/
theorem run_meshUse
    {node : Gltf.Node}
    {index : Nat}
    {mesh : Gltf.Mesh}
    (chosen : meshOf? source node = some (index, mesh)) :
    (meshUse source node).run registry =
      let kept := (meshObjects source index mesh).run registry
      let use := usesOf registry index
      (some (marked (useMark source index use) (kept.1.map (usedObject source node mesh))),
        if drawCount source index ≤ 1 then kept.2
        else { kept.2 with uses := Registry.assign registry.uses index (use + 1) }) := by
  have uses := @unused_meshObjects source index mesh registry
  have same : usesOf ((meshObjects source index mesh).run registry).2 index =
      usesOf registry index := by
    rw [usesOf, uses, usesOf]
  have numbered :=
    @run_numberedUse source ((meshObjects source index mesh).run registry).2 index
      (((meshObjects source index mesh).run registry).1.map (usedObject source node mesh))
  rw [same, uses] at numbered
  unfold meshUse
  simp only [chosen, StateT.run_bind, StateT.run_map]
  show (numberedUse source index _).run _ >>= _ = _
  rw [numbered]
  rfl

/-- A node that draws the mesh uses it once. -/
theorem usesOf_bear
    {index : Nat}
    (several : 1 < drawCount source index)
    (node : Nat) :
    usesOf ((bear source node).run registry).2 index =
      usesOf registry index + if drawsAt source index node then 1 else 0 := by
  obtain ⟨named, claimed⟩ :
      ∃ named, named = ((claimNodeName (nodeAt source node)).run registry).2 := ⟨_, rfl⟩
  have same : named.uses = registry.uses :=
    claimed ▸ (claims_claimNodeName (nodeAt source node)).unused registry
  have rest :
      ((bear source node).run registry).2.uses =
        ((meshUse source (nodeAt source node)).run named).2.uses := by
    rw [claimed]
    exact (unused_placedLight (nodeAt source node) _).trans
      (unused_placedCamera (nodeAt source node) _)
  rw [usesOf, rest, usesOf, ← same, drawsAt]
  cases chosen : meshOf? source (nodeAt source node) with
  | none =>
      unfold meshUse
      rw [chosen]
      rfl
  | some pair =>
      obtain ⟨other, mesh⟩ := pair
      rw [run_meshUse chosen]
      have kept := @unused_meshObjects source other mesh named
      by_cases here : other = index
      · subst here
        simp [Nat.not_le_of_gt several, Registry.find?_assign, usesOf]
      · have differs : index ≠ other := fun equal => here equal.symm
        split
        · simp [kept, here]
        · simp [Registry.find?_assign, differs, here]

/-- A mesh of several nodes is used as often as a walk comes by nodes that draw it. -/
theorem usesOf_walk
    {index : Nat}
    (several : 1 < drawCount source index)
    (visited : List Nat) :
    usesOf ((visited.mapM (bear source)).run registry).2 index =
      usesOf registry index + visited.countP (drawsAt source index) := by
  induction visited generalizing registry with
  | nil => rfl
  | cons node rest ih =>
      rw [run_walk_cons]
      simp only
      rw [ih, usesOf_bear several, List.countP_cons]
      omega

end Counting

section Keeping

variable {source : Source} {registry : Registry}

/-- A bearing has what is kept for the mesh of its node, used so many times before. -/
def Serves (source : Source) (uses : Nat → Nat) (bearing : Bearing) (registry : Registry) : Prop :=
  ∀ index mesh, meshOf? source (nodeAt source bearing.index) = some (index, mesh) →
    ∃ kept, Registry.find? registry.meshes index = some kept ∧
      bearing.objects =
        some (marked (useMark source index (uses index))
          (kept.map (usedObject source (nodeAt source bearing.index) mesh)))

/-- What serves a node serves it in an advanced registry. -/
theorem Serves.mono
    {uses : Nat → Nat}
    {bearing : Bearing}
    {after : Registry}
    (serves : Serves source uses bearing registry)
    (advances : Advances source registry after) :
    Serves source uses bearing after := by
  intro index mesh chosen
  obtain ⟨kept, found, made⟩ := serves index mesh chosen
  exact ⟨kept, advances.meshes index kept found, made⟩

/-- A node uses the objects that are kept for its mesh, marked with the number of the use. -/
theorem yields_meshUse
    (kept : Kept source registry)
    (node : Gltf.Node) :
    Yields source registry (meshUse source node) fun objects after =>
      ∀ index mesh, meshOf? source node = some (index, mesh) →
        ∃ kept, Registry.find? after.meshes index = some kept ∧
          objects =
            some (marked (useMark source index (usesOf registry index))
              (kept.map (usedObject source node mesh))) := by
  cases chosen : meshOf? source node with
  | none =>
      unfold meshUse
      rw [chosen]
      exact yields_pure kept fun index mesh other => by cases other
  | some pair =>
      obtain ⟨index, mesh⟩ := pair
      obtain ⟨_, _, placed⟩ := Option.bind_eq_some_iff.mp chosen
      obtain ⟨_, indexed, same⟩ := Option.map_eq_some_iff.mp placed
      cases same
      obtain ⟨advances, found⟩ := yields_meshObjects kept indexed
      rw [Yields, run_meshUse chosen]
      constructor
      · split
        · exact advances
        · exact advances.trans (advances.kept.advances rfl rfl)
      · rintro _ _ ⟨⟩
        refine ⟨_, ?_, rfl⟩
        simp only
        split
        · exact found
        · exact found

/-- Coming by a node keeps what is kept, and the node gets what is kept for its mesh. -/
theorem yields_bear
    (kept : Kept source registry)
    (node : Nat) :
    Yields source registry (bear source node) fun bearing after =>
      bearing.index = node ∧ Serves source (usesOf registry) bearing after := by
  have named :
      Yields source registry (claimNodeName (nodeAt source node)) fun _ after =>
        after.uses = registry.uses :=
    ⟨((aside_claimNodeName (nodeAt source node)).advances kept).1,
      (claims_claimNodeName (nodeAt source node)).unused registry⟩
  apply yields_bind named
  intro name first advances same
  apply yields_bind (yields_meshUse advances.kept (nodeAt source node))
  intro objects second further drawn
  apply yields_bind (yields_placedCamera further.kept (nodeAt source node))
  intro cameras third placed _
  apply yields_bind (yields_placedLight placed.kept (nodeAt source node))
  intro lights last lit _
  apply yields_pure lit.kept
  refine ⟨rfl, fun index mesh chosen => ?_⟩
  obtain ⟨built, found, made⟩ := drawn index mesh chosen
  have uses : usesOf first index = usesOf registry index := by
    rw [usesOf, same, usesOf]
  rw [uses] at made
  exact ⟨built, lit.meshes index built (placed.meshes index built found), made⟩

/-- A walk keeps what is kept, and its bearings are those of its nodes. -/
theorem yields_walk
    (kept : Kept source registry)
    (visited : List Nat) :
    Yields source registry (visited.mapM (bear source)) fun bearings _ =>
      bearings.map (·.index) = visited := by
  have stable (node : Nat) : Stable source fun (bearing : Bearing) _ => bearing.index = node :=
    fun _ _ _ _ same => same
  have each (node : Nat) (before : Registry) (kept : Kept source before) :
      Yields source before (bear source node) fun bearing _ => bearing.index = node :=
    (yields_bear kept node).imp fun _ _ _ known => known.1
  apply (yields_mapM stable (fun node _ => each node) kept).imp
  intro bearings after _ matched
  induction matched with
  | nil => rfl
  | cons here _ ih => rw [List.map_cons, here, ih]

/-- Every bearing of a walk has what is kept at its end, used as often as nodes before it draw it. -/
theorem serves_of_walk
    (kept : Kept source registry)
    (unused : registry.uses = [])
    {visited : List Nat}
    {before after : List Bearing}
    {bearing : Bearing}
    (parted : ((visited.mapM (bear source)).run registry).1 = before ++ bearing :: after)
    {index : Nat}
    {mesh : Gltf.Mesh}
    (chosen : meshOf? source (nodeAt source bearing.index) = some (index, mesh)) :
    ∃ kept,
      Registry.find? ((visited.mapM (bear source)).run registry).2.meshes index = some kept ∧
        bearing.objects =
          some (marked
            (useMark source index (before.countP fun earlier => drawsAt source index earlier.index))
            (kept.map (usedObject source (nodeAt source bearing.index) mesh))) := by
  have order := (yields_walk kept visited).2
  rw [parted, List.map_append, List.map_cons] at order
  subst order
  obtain ⟨earlier, sooner⟩ :
      ∃ earlier, earlier = ((before.map (·.index)).mapM (bear source)).run registry :=
    ⟨_, rfl⟩
  obtain ⟨reached, sameIndices⟩ := yields_walk kept (before.map (·.index))
  have lengths : earlier.1.length = before.length := by
    rw [sooner, ← List.length_map (·.index), sameIndices, List.length_map]
  rw [run_walk_append] at parted ⊢
  simp only [run_walk_cons, ← sooner] at parted ⊢
  obtain ⟨-, rest⟩ := List.append_inj parted lengths
  obtain ⟨made, -⟩ := List.cons.inj rest
  rw [← sooner] at reached
  obtain ⟨further, -, serves⟩ := yields_bear reached.kept bearing.index
  have ended := (yields_walk further.kept (after.map (·.index))).1
  rw [made] at serves
  obtain ⟨built, found, given⟩ := serves.mono ended index mesh chosen
  refine ⟨built, found, ?_⟩
  have mark :
      useMark source index (usesOf earlier.2 index) =
        useMark source index (before.countP fun earlier => drawsAt source index earlier.index) := by
    unfold useMark
    split
    · rfl
    · next several =>
        have none : usesOf registry index = 0 := by
          rw [usesOf, unused]
          rfl
        rw [sooner, usesOf_walk (Nat.lt_of_not_le several), none, List.countP_map, Nat.zero_add]
        rfl
  rw [given, mark]

end Keeping

section Scenes

/-- What is kept for meshes when a scene has been built portrays their primitives. -/
theorem portrays_walkOf
    (source : Source)
    (scene : Gltf.Scene)
    {index : Nat}
    {mesh : Gltf.Mesh}
    {built : List Scene.Node}
    (indexed : source.document.meshes[index]? = some mesh)
    (found : Registry.find? ((walkOf source scene).run {}).2.meshes index = some built) :
    List.Forall₂ (Portrays (extrasMembers mesh.extras)) mesh.primitives built := by
  have stocked :=
    ((upheld_true source).leads_sceneBlueprints scene {} (stocked_empty trivial)).1.meshes
  rw [run_sceneBlueprints] at stocked
  obtain ⟨same, known, portrayed⟩ := stocked index built found
  cases known.symm.trans indexed
  exact portrayed

/-- Marked objects of a mesh are used as the node asks. -/
theorem usedAs_marked
    {source : Source}
    {node : Gltf.Node}
    {mesh : Gltf.Mesh}
    {extras : Json.Members}
    {primitives : List Gltf.Primitive}
    {built : List Scene.Node}
    (mark : String)
    (portrays : List.Forall₂ (Portrays extras) primitives built) :
    List.Forall₂ (UsedAs source node mesh mark) built
      (marked mark (built.map (usedObject source node mesh))) := by
  rw [marked, List.map_map]
  induction portrays with
  | nil => exact .nil
  | cons here _ ih => exact .cons (usedAs_of_portrays source node mesh mark here) ih

/-- For every mesh of a scene there are objects that portray its primitives, and each node that
draws the mesh has those, as the node itself uses them.  Besides the node, only the number of nodes
before it that draw the mesh counts, and that for the names alone. -/
theorem meshes_are_shared
    (source : Source)
    (scene : Gltf.Scene) :
    let walked := (walkOf source scene).run {}
    let bearings := walked.1.2
    (sceneBlueprints source scene).run {} =
        ((walked.1.1, raiseAll source scene bearings), walked.2) ∧
      bearings.map (·.index) = visitsOf source scene ∧
      ∃ shared : Nat → List Scene.Node,
        ∀ before bearing after, bearings = before ++ bearing :: after →
          ∀ index mesh, meshOf? source (nodeAt source bearing.index) = some (index, mesh) →
            let uses := before.countP fun earlier => drawsAt source index earlier.index
            List.Forall₂ (Portrays (extrasMembers mesh.extras)) mesh.primitives (shared index) ∧
              ∃ objects, bearing.objects = some objects ∧
                List.Forall₂
                  (UsedAs source (nodeAt source bearing.index) mesh (useMark source index uses))
                  (shared index) objects := by
  let named := (claimSceneName scene).run {}
  have kept : Kept source named.2 :=
    ((aside_claimSceneName scene).advances (kept_empty source)).1.kept
  have unused : named.2.uses = [] := (claims_claimSceneName scene).unused {}
  refine ⟨run_sceneBlueprints source scene, (yields_walk kept (visitsOf source scene)).2, ?_⟩
  refine ⟨fun index => (Registry.find? ((walkOf source scene).run {}).2.meshes index).getD [], ?_⟩
  intro before bearing after parted index mesh chosen
  obtain ⟨built, found, given⟩ := serves_of_walk kept unused parted chosen
  have indexed : source.document.meshes[index]? = some mesh := by
    obtain ⟨_, _, placed⟩ := Option.bind_eq_some_iff.mp chosen
    obtain ⟨_, known, same⟩ := Option.map_eq_some_iff.mp placed
    cases same
    exact known
  have portrays := portrays_walkOf source scene indexed found
  have shared :
      (Registry.find? ((walkOf source scene).run {}).2.meshes index).getD [] = built :=
    congrArg (·.getD []) found
  simp only [shared]
  exact ⟨portrays, _, given, usedAs_marked _ portrays⟩

/-- Three nodes draw one face.  Only the first has weights, and the last is skinned. -/
example :
    let source : Source :=
      { document :=
          { Sample.document with
            meshes := #[⟨some "Face", .null, [Sample.twins.1], some [0.25]⟩]
            nodes :=
              #[{ Gltf.Node.absent with mesh := some 0, weights := some [0.5] },
                { Gltf.Node.absent with mesh := some 0 },
                { Gltf.Node.absent with mesh := some 0, weights := some [], skin := some 0 }] }
        contents := none }
    let bearings := ((walkOf source ⟨none, [0, 1, 2], .null⟩).run {}).1.2
    let objects := bearings.map fun bearing => bearing.objects.getD []
    objects.map (·.map fun object => (object.name, object.kind)) =
        [[("Face_instance_0", .mesh)],
          [("Face_instance_1", .mesh)],
          [("Face_instance_2", .skinnedMesh)]] ∧
      objects.map (·.map fun object => object.morphTargets.map (·.influences)) =
        [[some [(0.5 : Float32).toFloat]], [some [(0.25 : Float32).toFloat]], [some [0.0]]] :=
  ⟨by decide +kernel, rfl⟩

end Scenes

end SceneMarkup.Loading
