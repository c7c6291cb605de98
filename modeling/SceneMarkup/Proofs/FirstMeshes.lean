import Mathlib
import SceneMarkup.Proofs.Pairs
import SceneMarkup.Proofs.Sharing

namespace SceneMarkup.Scene

open Markup Pruning

/-!
# Entries and their first meshes

Nodes are recorded in the order of the traversal.  The entry of a pair is added
at the first mesh that draws it, so entries stand in the order of their first
meshes, each is reached by the name of its first mesh, and each is called by the
letters of a node's name and a number where these are taken.
-/

/-- The first node among some that draws the pair. -/
def firstDrawing
    (graph : SceneGraph)
    (ids : List NodeId)
    (pair : SharedPair) :
    Option NodeId :=
  ids.find? fun id => (graph.node id).draws pair.geometry pair.material

/-- What the entries tell of the first meshes among the nodes. -/
structure FirstCome
    (graph : SceneGraph)
    (ids : List NodeId)
    (pairs : List SharedPair) :
    Prop where
  /-- An entry reaches the first mesh that draws its pair, by the mesh's own name. -/
  reached :
    ∀ pair ∈ pairs, ∃ id,
      firstDrawing graph ids pair = some id ∧ pair.node = nodeExpression (graph.node id).name
  inOrder : (pairs.filterMap (firstDrawing graph ids)).Sublist ids
  spelled :
    ∀ pair ∈ pairs, ∃ nodeName attempt,
      pair.name = Text.numbered "" (componentName nodeName) attempt

section Steps

variable {graph : SceneGraph} {ids : List NodeId} {pairs : List SharedPair} {pair : SharedPair}
  {id : NodeId}

theorem firstCome_nil
    (graph : SceneGraph) :
    FirstCome graph [] [] :=
  ⟨by simp, List.Sublist.refl _, by simp⟩

/-- A first mesh stays the first one when more nodes follow. -/
theorem firstDrawing_append
    (first : firstDrawing graph ids pair = some id)
    (more : List NodeId) :
    firstDrawing graph (ids ++ more) pair = some id := by
  unfold firstDrawing at first ⊢
  rw [List.find?_append, first, Option.some_or]

/-- Nodes that come later change no first mesh. -/
theorem FirstCome.firsts_append
    (come : FirstCome graph ids pairs)
    (more : List NodeId) :
    pairs.filterMap (firstDrawing graph (ids ++ more)) =
      pairs.filterMap (firstDrawing graph ids) := by
  refine List.filterMap_congr fun pair listed => ?_
  obtain ⟨id, first, _⟩ := come.reached pair listed
  rw [first, firstDrawing_append first]

/-- Nodes that come later change no expression. -/
theorem FirstCome.reached_append
    (come : FirstCome graph ids pairs)
    (more : List NodeId) :
    ∀ pair ∈ pairs, ∃ id,
      firstDrawing graph (ids ++ more) pair = some id ∧
        pair.node = nodeExpression (graph.node id).name := by
  intro pair listed
  obtain ⟨id, first, reaches⟩ := come.reached pair listed
  exact ⟨id, firstDrawing_append first more, reaches⟩

/-- Nodes that come later change nothing that the entries tell. -/
theorem FirstCome.later
    (come : FirstCome graph ids pairs)
    (more : List NodeId) :
    FirstCome graph (ids ++ more) pairs where
  reached := come.reached_append more
  inOrder := by
    rw [come.firsts_append]
    exact come.inOrder.trans (List.sublist_append_left _ _)
  spelled := come.spelled

/-- Counting one more mesh changes nothing else that the entries tell. -/
theorem FirstCome.counted
    (come : FirstCome graph ids pairs)
    (geometry material : Nat) :
    FirstCome graph ids
      (pairs.map fun pair =>
        if pair.isFor geometry material then { pair with count := pair.count + 1 } else pair) where
  reached := by
    refine List.forall_mem_map.mpr fun before member => ?_
    obtain ⟨count, same⟩ := exists_count before geometry material
    rw [same]
    exact come.reached before member
  inOrder := by
    have kept : ∀ before ∈ pairs,
        (firstDrawing graph ids ∘ fun pair : SharedPair =>
            if pair.isFor geometry material then { pair with count := pair.count + 1 } else pair)
          before = firstDrawing graph ids before := by
      intro before _
      obtain ⟨count, same⟩ := exists_count before geometry material
      rw [Function.comp_apply, same]
      rfl
    rw [List.filterMap_map, List.filterMap_congr kept]
    exact come.inOrder
  spelled := by
    refine List.forall_mem_map.mpr fun before member => ?_
    obtain ⟨count, same⟩ := exists_count before geometry material
    rw [same]
    exact come.spelled before member

/-- One more node is recorded. -/
theorem FirstCome.record
    {index : InstanceIndex}
    (come : FirstCome graph ids index.pairs)
    (tallied : Tallied (ids.map graph.node) index.pairs)
    (indexed : index.Indexed)
    (id : NodeId) :
    FirstCome graph (ids ++ [id]) (index.recordNode (graph.node id)).pairs := by
  obtain ⟨_, step⟩ := recorded indexed (graph.node id)
  generalize (index.recordNode (graph.node id)).pairs = after at step ⊢
  cases step with
  | @count geometry material drawn known => exact (come.counted geometry material).later [id]
  | @add geometry material drawn fresh attempt own =>
      have undrawn : ids.find? (fun other => (graph.node other).draws geometry material) = none :=
        List.find?_eq_none.mpr fun other member =>
          tallied.undrawn fresh _ (List.mem_map_of_mem member)
      have here :
          firstDrawing graph (ids ++ [id])
              ⟨geometry, material, 1, Text.numbered "" (componentName (graph.node id).name) attempt,
                nodeExpression (graph.node id).name⟩ = some id := by
        simp only [firstDrawing, List.find?_append, undrawn, Option.none_or, List.find?_cons, drawn]
      refine ⟨?_, ?_, ?_⟩
      · exact List.forall_mem_append.mpr ⟨come.reached_append [id],
          List.forall_mem_singleton.mpr ⟨id, here, rfl⟩⟩
      · rw [List.filterMap_append, come.firsts_append, List.filterMap_cons, here]
        exact come.inOrder.append (List.Sublist.refl _)
      · exact List.forall_mem_append.mpr ⟨come.spelled,
          List.forall_mem_singleton.mpr ⟨_, attempt, rfl⟩⟩
  | skip undrawn => exact come.later [id]

/-- A scan keeps its entries in the order of their first meshes. -/
theorem firstCome_foldl
    (graph : SceneGraph)
    (ids : List NodeId) :
    FirstCome graph ids ((ids.map graph.node).foldl InstanceIndex.recordNode {}).pairs := by
  -- Induction from the end: the last node is recorded after all others.
  induction ids using List.reverseRecOn with
  | nil => exact firstCome_nil graph
  | append_singleton ids id ih =>
      obtain ⟨indexed, tallied⟩ := tallied_scan (ids.map graph.node)
      rw [List.map_append, List.foldl_append]
      exact ih.record tallied indexed id

end Steps

section Spellings

/-- A capital letter, then letters, then digits, all of them ASCII. -/
def IsComponentName (name : String) : Prop :=
  ∃ first letters digits,
    name.toList = first :: (letters ++ digits) ∧
      first.isUpper = true ∧
      (∀ letter ∈ letters, letter.isAlpha = true) ∧
      ∀ digit ∈ digits, digit.isDigit = true

/-- A component is called by letters, the first of them a capital. -/
theorem toList_componentName
    (nodeName : String) :
    ∃ first letters,
      (componentName nodeName).toList = first :: letters ∧
        first.isUpper = true ∧ ∀ letter ∈ letters, letter.isAlpha = true := by
  unfold componentName
  split
  next => exact ⟨'P', ['a', 'r', 't'], rfl, by decide, List.all_eq_true.mp (by decide)⟩
  next first rest letters =>
    have alpha : ∀ letter ∈ first :: rest, letter.isAlpha = true := by
      intro letter member
      rw [← letters] at member
      exact (List.mem_filter.mp member).2
    refine ⟨first.toUpper, rest, String.toList_ofList, ?_, fun letter member =>
      alpha letter (List.mem_cons_of_mem _ member)⟩
    exact (Char.isUpper_toUpper_eq_isAlpha first).trans (alpha first List.mem_cons_self)

/-- A number after the name of a component keeps letters before digits. -/
theorem isComponentName_numbered
    (nodeName : String)
    (attempt : Nat) :
    IsComponentName (Text.numbered "" (componentName nodeName) attempt) := by
  obtain ⟨first, letters, spelled, capital, alpha⟩ := toList_componentName nodeName
  unfold Text.numbered
  split
  next =>
    exact ⟨first, letters, [], by rw [spelled, List.append_nil], capital, alpha,
      List.forall_mem_nil _⟩
  next =>
    refine ⟨first, letters, Nat.toDigits 10 attempt, ?_, capital, alpha, fun digit member =>
      Nat.isDigit_of_mem_toDigits (by decide) (by decide) member⟩
    have digits : (toString attempt).toList = Nat.toDigits 10 attempt := Nat.toList_repr
    rw [String.toList_append, String.toList_append, spelled, digits]
    simp

end Spellings

section Analyzed

variable {graph : SceneGraph} {options : Options} {pair : SharedPair}

/-- The meshes that draw the pair, in the order of the traversal; none of them is below a bone. -/
def drawers
    (graph : SceneGraph)
    (geometry : GeometryId)
    (material : MaterialId) :
    List NodeId :=
  (visible graph).filter fun id => (graph.node id).draws geometry material

/-- The scan meets every mesh that draws a pair. -/
theorem drawers_eq
    (linked : graph.Linked)
    (geometry : GeometryId)
    (material : MaterialId) :
    drawers graph geometry material =
      (graph.outsideBones SceneGraph.root).filter fun id =>
        (graph.node id).draws geometry material := by
  rw [outsideBones_root linked, List.filter_filter, drawers]
  refine List.filter_congr fun id _ => ?_
  cases drawn : (graph.node id).draws geometry material with
  | false => rfl
  | true =>
      rw [kind_of_isPlainMesh (Node.draws_iff.mp drawn).1]
      rfl

/-- As many meshes draw a pair as the scan counts. -/
theorem length_drawers
    (linked : graph.Linked)
    (pair : SharedPair) :
    (drawers graph pair.geometry pair.material).length =
      drawings (InstanceIndex.scanned graph) pair := by
  rw [drawers_eq linked, drawings, InstanceIndex.scanned, List.countP_map,
    List.countP_eq_length_filter]
  rfl

/-- The first mesh that draws a pair is the first that the scan comes by. -/
theorem head?_drawers
    (linked : graph.Linked)
    (pair : SharedPair) :
    (drawers graph pair.geometry pair.material).head? =
      firstDrawing graph (graph.outsideBones SceneGraph.root) pair := by
  rw [drawers_eq linked, List.head?_filter, firstDrawing]

/-- The entries of the index are found at their first meshes. -/
theorem firstCome_analyze
    (graph : SceneGraph)
    (options : Options) :
    FirstCome graph (graph.outsideBones SceneGraph.root)
      (InstanceIndex.analyze graph options).pairs := by
  have come := firstCome_foldl graph (graph.outsideBones SceneGraph.root)
  rw [InstanceIndex.pairs_analyze]
  refine ⟨fun pair listed => come.reached pair (List.mem_filter.mp listed).1, ?_,
    fun pair listed => come.spelled pair (List.mem_filter.mp listed).1⟩
  exact (List.filter_sublist.filterMap _).trans come.inOrder

/-- An entry stands for meshes that are there. -/
theorem length_drawers_pos
    (linked : graph.Linked)
    (listed : pair ∈ (InstanceIndex.analyze graph options).pairs) :
    0 < (drawers graph pair.geometry pair.material).length := by
  rw [length_drawers linked, ← InstanceIndex.count_of_mem listed]
  exact (InstanceIndex.tallied_found graph).used pair (InstanceIndex.mem_analyze.mp listed).1

/-- A pair is listed if enough meshes draw it. -/
theorem exists_pair_iff
    (linked : graph.Linked)
    (geometry : GeometryId)
    (material : MaterialId) :
    (∃ pair ∈ (InstanceIndex.analyze graph options).pairs, pair.key = (geometry, material)) ↔
      1 < (drawers graph geometry material).length ∨
        (drawers graph geometry material).length = 1 ∧ options.instanceAll = true := by
  have tallied := InstanceIndex.tallied_found graph
  constructor
  · rintro ⟨pair, listed, same⟩
    obtain ⟨found, wanted⟩ := InstanceIndex.mem_analyze.mp listed
    cases same
    have used := length_drawers_pos linked listed
    rw [length_drawers linked, ← tallied.counted pair found] at used ⊢
    rcases wanted with all | several
    · rcases Nat.lt_or_eq_of_le (Nat.succ_le_of_lt used) with several | single
      · exact .inl several
      · exact .inr ⟨single.symm, all⟩
    · exact .inl several
  · intro enough
    have some : 0 < (drawers graph geometry material).length := by
      rcases enough with several | ⟨single, _⟩
      · exact Nat.lt_of_succ_lt several
      · exact single ▸ Nat.one_pos
    obtain ⟨id, member⟩ := List.exists_mem_of_length_pos some
    rw [drawers_eq linked, List.mem_filter] at member
    obtain ⟨pair, found, same⟩ :=
      tallied.complete _ (List.mem_map_of_mem member.1) geometry material member.2
    refine ⟨pair, InstanceIndex.mem_analyze.mpr ⟨found, ?_⟩, same⟩
    cases same
    rw [length_drawers linked, ← tallied.counted pair found] at enough
    exact enough.symm.imp_left And.right

/--
The index is exact.  A geometry and a material have an entry if several visible
meshes draw them, or a single one does and all are wanted; the entry counts these
meshes.  Every entry is found by its geometry and material, entries stand in the
order in which the traversal meets their first meshes, and their names differ and
are made of a capital letter, letters and digits.
-/
theorem analyze_lists_drawn_pairs
    {graph : SceneGraph}
    (linked : graph.Linked)
    (options : Options) :
    let index := InstanceIndex.analyze graph options
    (∀ geometry material,
      ((index.get? geometry material).isSome = true ↔
          1 < (drawers graph geometry material).length ∨
            (drawers graph geometry material).length = 1 ∧ options.instanceAll = true) ∧
        ∀ pair,
          index.get? geometry material = some pair ↔
            pair ∈ index.pairs ∧ (pair.geometry, pair.material) = (geometry, material)) ∧
      (∀ pair ∈ index.pairs,
        pair.count = (drawers graph pair.geometry pair.material).length) ∧
      (index.pairs.map fun pair => (pair.geometry, pair.material)).Nodup ∧
      (∃ firsts : List NodeId,
        (index.pairs.map fun pair => (drawers graph pair.geometry pair.material).head?) =
            firsts.map some ∧
          firsts.Sublist (graph.traverse SceneGraph.root)) ∧
      (index.pairs.map (·.name)).Nodup ∧
      ∀ pair ∈ index.pairs, IsComponentName pair.name := by
  intro index
  have come := firstCome_analyze graph options
  refine ⟨fun geometry material => ⟨?_, fun pair => InstanceIndex.get?_analyze⟩, ?_,
    InstanceIndex.keys_analyze graph options, ?_, InstanceIndex.names_analyze graph options, ?_⟩
  · rw [← exists_pair_iff linked, Option.isSome_iff_exists]
    exact exists_congr fun pair => InstanceIndex.get?_analyze
  · intro pair listed
    rw [length_drawers linked, InstanceIndex.count_of_mem listed]
  · refine ⟨index.pairs.filterMap (firstDrawing graph (graph.outsideBones SceneGraph.root)),
      ?_, come.inOrder.trans ?_⟩
    · rw [List.map_filterMap_some_eq_filter_map_isSome, List.filter_eq_self.mpr]
      · exact List.map_congr_left fun pair _ => head?_drawers linked pair
      · intro first listed
        obtain ⟨pair, member, rfl⟩ := List.mem_map.mp listed
        obtain ⟨id, found, _⟩ := come.reached pair member
        rw [found, Option.isSome_some]
    · rw [outsideBones_root linked]
      exact List.filter_sublist.trans List.filter_sublist
  · intro pair listed
    obtain ⟨nodeName, attempt, spelled⟩ := come.spelled pair listed
    rw [spelled]
    exact isComponentName_numbered nodeName attempt

end Analyzed

/-- Rocks of two kinds, one of them in a shed, with a mesh without a name before it and a pebble of
that mesh's kind below a bone. -/
def quarryScene : SceneGraph :=
  { (((((((SceneGraph.ofRoot "Scene").add 0 { name := "Shed" }).add 0
      { name := "Rock", kind := .mesh, geometry := some 1, material := some 0 }).add 1
      { kind := .mesh, geometry := some 0, material := some 0 }).add 0
      { name := "Hip", kind := .bone }).add 4
      { name := "Pebble", kind := .mesh, geometry := some 0, material := some 0 }).add 0
      { name := "Rock.001", kind := .mesh, geometry := some 2, material := some 0 }).add 1
      { name := "Rock.002", kind := .mesh, geometry := some 1, material := some 0 } with
    geometries := #[{}, {}, {}]
    materials := #[{ name := "Slate" }]
    clips := [{ name := "Dig", targets := [3, 6] }] }

theorem built_quarryScene : Built quarryScene :=
  ((((((((Built.ofRoot "Scene").add (by decide) _).add (by decide) _).add (by decide) _).add
    (by decide) _).add (by decide) _).add (by decide) _).add (by decide) _).edit
    ⟨rfl, rfl, fun _ => rfl, fun _ => rfl⟩ fun _ => rfl

/-- The rocks in the quarry and in the shed are counted together, at the place of the one in the
shed, and the pebble is not counted. -/
theorem analyze_lists_drawn_pairs_quarryScene :
    let index := InstanceIndex.analyze quarryScene { instanceAll := true }
    quarryScene.Linked ∧
      index.pairs =
        [⟨0, 0, 1, "Part", "nodes['']"⟩, ⟨1, 0, 2, "Rock", "nodes['Rock.002']"⟩,
          ⟨2, 0, 1, "Rock1", "nodes['Rock.001']"⟩] ∧
      drawers quarryScene 1 0 = [7, 2] ∧
      (index.get? 1 0).isSome = true ∧
      (index.get? 0 1).isSome = false ∧
      IsComponentName "Rock1" := by
  intro index
  have linked := built_quarryScene.linked
  have listed :
      index.pairs =
        [⟨0, 0, 1, "Part", "nodes['']"⟩, ⟨1, 0, 2, "Rock", "nodes['Rock.002']"⟩,
          ⟨2, 0, 1, "Rock1", "nodes['Rock.001']"⟩] := by
    decide +kernel
  have rocks : drawers quarryScene 1 0 = [7, 2] := by decide +kernel
  have nothing : drawers quarryScene 0 1 = [] := by decide +kernel
  obtain ⟨present, _, _, _, _, names⟩ :=
    analyze_lists_drawn_pairs linked { instanceAll := true }
  refine ⟨linked, listed, rocks, (present 1 0).1.mpr (.inl ?_), ?_, ?_⟩
  · rw [rocks]
    decide
  · rw [← Bool.not_eq_true, (present 0 1).1, nothing]
    decide
  · exact names ⟨2, 0, 1, "Rock1", "nodes['Rock.001']"⟩ (by rw [listed]; simp)

end SceneMarkup.Scene
