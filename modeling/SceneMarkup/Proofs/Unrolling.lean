import SceneMarkup.Proofs.Descent

namespace SceneMarkup.Loading

/-!
# Construction as a walk

All that the construction of a scene asks of the registry it asks at the nodes, at
one after the other as a walk comes by them.  What a node is given there is its
bearing.  From the bearings in the order of the walk the blueprints are raised
without the registry, so whatever is known of a walk is known of the construction.
-/

/-- What a node is given when a walk comes by it. -/
structure Bearing where
  index : Nat
  name : Option String
  /-- The objects that were made for the mesh of the node, if it draws one. -/
  objects : Option (List Scene.Node)
  /-- What stands for its camera and its light. -/
  devices : List Blueprint
  deriving Inhabited

/-- What stands for the things that a node carries. -/
def Bearing.carried (bearing : Bearing) : List Blueprint :=
  (bearing.objects.map fun objects => Blueprint.bundle (objects.map .leaf)).toList
    ++ bearing.devices

section Walks

variable (source : Source)

/-- The objects of the mesh that a node draws, made as the node uses them. -/
def meshUse (node : Gltf.Node) : Building (Option (List Scene.Node)) :=
  match meshOf? source node with
  | some (index, mesh) => do
      let built ← meshObjects source index mesh
      some <$> numberedUse source index (built.map (usedObject source node mesh))
  | none => pure none

/-- Come by a node. -/
def bear (index : Nat) : Building Bearing := do
  let node := nodeAt source index
  let name ← claimNodeName node
  let objects ← meshUse source node
  let cameras ← placedCamera source node
  let lights ← placedLight source node
  return ⟨index, name, objects, cameras ++ lights⟩

/-- The nodes of a scene in the order in which they are come by. -/
def visitsOf (scene : Gltf.Scene) : List Nat :=
  scene.nodes.flatMap (visits source source.document.nodes.size)

/-- Claim the name of a scene and come by its nodes. -/
def walkOf (scene : Gltf.Scene) : Building (String × List Bearing) := do
  let name ← claimSceneName scene
  return (name, ← (visitsOf source scene).mapM (bear source))

/-- A step that takes from bearings in the order of a walk. -/
abbrev Raising := StateM (List Bearing)

/-- Take the next bearing. -/
def nextBearing : Raising Bearing :=
  fun bearings => (bearings.headD default, bearings.tail)

/-- Raise the blueprint of a node with nodes at most so many levels below it. -/
def raise : Nat → Nat → Raising Blueprint
  | levels, index => do
      let bearing ← nextBearing
      let children ←
        match levels with
        | 0 => pure []
        | fewer + 1 => (nodeAt source index).children.mapM (raise fewer)
      return standIn index (nodeAt source index) bearing.name children
        (holder (isJoint source index) bearing.carried)

/-- The blueprints of the nodes of a scene, raised from bearings. -/
def raiseAll (scene : Gltf.Scene) (bearings : List Bearing) : List Blueprint :=
  ((scene.nodes.mapM (raise source source.document.nodes.size)).run bearings).1

end Walks

section Unrolling

variable {source : Source}

/-- Come by nodes one after another. -/
theorem run_walk_append
    (first second : List Nat)
    (registry : Registry) :
    ((first ++ second).mapM (bear source)).run registry =
      let early := (first.mapM (bear source)).run registry
      let late := (second.mapM (bear source)).run early.2
      (early.1 ++ late.1, late.2) := by
  rw [List.mapM_append]
  rfl

/-- A walk bears its first node before the others. -/
theorem run_walk_cons
    (node : Nat)
    (rest : List Nat)
    (registry : Registry) :
    ((node :: rest).mapM (bear source)).run registry =
      let early := (bear source node).run registry
      let late := (rest.mapM (bear source)).run early.2
      (early.1 :: late.1, late.2) := by
  rw [List.mapM_cons]
  rfl

/-- A step asks of the registry what a walk over some nodes asks, and what it gives is raised from
the bearings of the walk. -/
def Unrolls
    (source : Source)
    (visited : List Nat)
    (step : Building α)
    (raised : Raising α) :
    Prop :=
  ∀ registry rest,
    let walked := (visited.mapM (bear source)).run registry
    raised.run (walked.1 ++ rest) = ((step.run registry).1, rest) ∧
      walked.2 = (step.run registry).2

theorem unrolls_pure (value : α) : Unrolls source [] (pure value) (pure value) :=
  fun _ _ => ⟨rfl, rfl⟩

/-- Steps unroll one after the other into the walks of both. -/
theorem unrolls_bind
    {first second : List Nat}
    {step : Building α}
    {next : α → Building β}
    {raised : Raising α}
    {later : α → Raising β}
    (early : Unrolls source first step raised)
    (late : ∀ value, Unrolls source second (next value) (later value)) :
    Unrolls source (first ++ second) (step >>= next) (raised >>= later) := by
  intro registry rest
  rw [run_walk_append]
  obtain ⟨_, reached⟩ := early registry rest
  simp only [reached]
  obtain ⟨raisedLate, ended⟩ := late (step.run registry).1 (step.run registry).2 rest
  refine ⟨?_, ended⟩
  have raisedEarly := (early registry
    (((second.mapM (bear source)).run (step.run registry).2).1 ++ rest)).1
  rw [List.append_assoc, StateT.run_bind, raisedEarly]
  exact raisedLate

/-- Bearing a node unrolls into a walk of that node alone. -/
theorem unrolls_bear (index : Nat) : Unrolls source [index] (bear source index) nextBearing :=
  fun _ _ => ⟨rfl, rfl⟩

/-- A row of steps unrolls into their walks one after the other. -/
theorem unrolls_mapM
    {walk : Nat → List Nat}
    {step : Nat → Building Blueprint}
    {raised : Nat → Raising Blueprint}
    (each : ∀ item, Unrolls source (walk item) (step item) (raised item))
    (items : List Nat) :
    Unrolls source (items.flatMap walk) (items.mapM step) (items.mapM raised) := by
  induction items with
  | nil => exact unrolls_pure []
  | cons item rest ih =>
      rw [List.mapM_cons, List.mapM_cons, List.flatMap_cons, ← List.append_nil (rest.flatMap walk)]
      refine unrolls_bind (each item) fun blueprint => ?_
      exact unrolls_bind ih fun blueprints => unrolls_pure (blueprint :: blueprints)

/-- The mesh of a node is drawn by the objects of its use. -/
theorem drawnMesh_eq
    (node : Gltf.Node) :
    drawnMesh source node = do
      let objects ← meshUse source node
      return (objects.map fun objects => Blueprint.bundle (objects.map .leaf)).toList := by
  have drawn :
      drawnMesh source node =
        match meshOf? source node with
        | some (index, mesh) => return [← meshBlueprint source node index mesh]
        | none => pure [] := rfl
  rw [drawn, meshUse]
  cases meshOf? source node with
  | some chosen =>
      simp only [meshBlueprint, bind_assoc, map_eq_pure_bind, pure_bind]
      rfl
  | none =>
      rw [pure_bind]
      rfl

/-- A node is come by before the nodes below it. -/
theorem blueprintOf_eq
    (levels index : Nat) :
    blueprintOf source levels index = do
      let bearing ← bear source index
      let children ←
        match levels with
        | 0 => pure []
        | fewer + 1 => (nodeAt source index).children.mapM (blueprintOf source fewer)
      return standIn index (nodeAt source index) bearing.name children
        (holder (isJoint source index) bearing.carried) := by
  rw [blueprintOf.eq_def]
  simp only [bear, carried_eq, drawnMesh_eq, bind_assoc, pure_bind, Bearing.carried,
    List.append_assoc]
  rfl

/-- The blueprint of a node unrolls into the walk over its subtree. -/
theorem unrolls_blueprintOf
    (levels index : Nat) :
    Unrolls source (visits source levels index) (blueprintOf source levels index)
      (raise source levels index) := by
  induction levels generalizing index with
  | zero =>
      have steps : visits source 0 index = [index] ++ ([] ++ []) := rfl
      rw [blueprintOf_eq, raise, steps]
      refine unrolls_bind (unrolls_bear index) fun bearing => ?_
      exact unrolls_bind (unrolls_pure []) fun children => unrolls_pure _
  | succ fewer ih =>
      have steps :
          visits source (fewer + 1) index =
            [index] ++ ((nodeAt source index).children.flatMap (visits source fewer) ++ []) := by
        rw [List.append_nil]
        rfl
      rw [blueprintOf_eq, raise, steps]
      refine unrolls_bind (unrolls_bear index) fun bearing => ?_
      exact unrolls_bind (unrolls_mapM ih _) fun children => unrolls_pure _

/-- The blueprints of a scene are raised from the bearings of a walk over its nodes. -/
theorem run_sceneBlueprints
    (source : Source)
    (scene : Gltf.Scene) :
    (sceneBlueprints source scene).run {} =
      let walked := (walkOf source scene).run {}
      ((walked.1.1, raiseAll source scene walked.1.2), walked.2) := by
  let levels := source.document.nodes.size
  let named := (claimSceneName scene).run {}
  have unrolls :
      Unrolls source (visitsOf source scene) (scene.nodes.mapM (blueprintOf source levels))
        (scene.nodes.mapM (raise source levels)) :=
    unrolls_mapM (unrolls_blueprintOf levels) scene.nodes
  obtain ⟨raised, reached⟩ := unrolls named.2 []
  rw [List.append_nil] at raised
  have blueprints :
      raiseAll source scene (((visitsOf source scene).mapM (bear source)).run named.2).1 =
        ((scene.nodes.mapM (blueprintOf source levels)).run named.2).1 :=
    congrArg Prod.fst raised
  exact Prod.ext (Prod.ext rfl blueprints.symm) reached.symm

end Unrolling

end SceneMarkup.Loading
