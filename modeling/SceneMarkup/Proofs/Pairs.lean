import SceneMarkup.Proofs.FreshNames
import SceneMarkup.Scene.Labels

namespace SceneMarkup.Scene

/-!
# What the index of shared pairs counts

Nodes are looked at one after another.  At any time there is one entry for every
pair that a plain mesh among them draws, it counts these meshes, and its name is
its own.
-/

/-- Whether the node is a plain mesh with the given geometry and material. -/
def Node.draws (node : Node) (geometry : GeometryId) (material : MaterialId) : Bool :=
  node.kind.isPlainMesh && node.geometry == some geometry && node.material == some material

/-- Whether an entry is about the given geometry and material. -/
def SharedPair.isFor (pair : SharedPair) (geometry : GeometryId) (material : MaterialId) : Bool :=
  pair.geometry == geometry && pair.material == material

/-- How many of the nodes draw the pair. -/
def drawings (nodes : List Node) (pair : SharedPair) : Nat :=
  nodes.countP fun node => node.draws pair.geometry pair.material

/-- Only one kind is a plain mesh. -/
theorem kind_of_isPlainMesh
    {kind : NodeKind}
    (plain : kind.isPlainMesh = true) :
    kind = .mesh := by
  cases kind <;> simp_all [NodeKind.isPlainMesh]

/-- An entry is for a pair exactly if that is its key. -/
theorem SharedPair.isFor_iff
    {pair : SharedPair}
    {geometry : GeometryId}
    {material : MaterialId} :
    pair.isFor geometry material = true ↔ pair.key = (geometry, material) := by
  simp [isFor, key]

/-- A node draws a pair exactly if it is a plain mesh with that geometry and material. -/
theorem Node.draws_iff
    {node : Node}
    {geometry : GeometryId}
    {material : MaterialId} :
    node.draws geometry material = true ↔
      node.kind.isPlainMesh = true ∧ node.geometry = some geometry ∧
        node.material = some material := by
  simp [draws, and_assoc]

/-- A node draws one pair at most. -/
theorem Node.draws_unique
    {node : Node}
    {geometry otherGeometry : GeometryId}
    {material otherMaterial : MaterialId}
    (first : node.draws geometry material = true)
    (second : node.draws otherGeometry otherMaterial = true) :
    (geometry, material) = (otherGeometry, otherMaterial) := by
  obtain ⟨_, geometryFirst, materialFirst⟩ := draws_iff.mp first
  obtain ⟨_, geometrySecond, materialSecond⟩ := draws_iff.mp second
  rw [geometryFirst] at geometrySecond
  rw [materialFirst] at materialSecond
  rw [Option.some.inj geometrySecond, Option.some.inj materialSecond]

/-- Counting changes nothing of an entry but its count. -/
theorem exists_count
    (pair : SharedPair)
    (geometry : GeometryId)
    (material : MaterialId) :
    ∃ count,
      (if pair.isFor geometry material then { pair with count := pair.count + 1 } else pair) =
        { pair with count := count } := by
  split
  next => exact ⟨pair.count + 1, rfl⟩
  next => exact ⟨pair.count, rfl⟩

namespace InstanceIndex

/-- Whatever is looked up is listed. -/
theorem mem_of_get?
    {index : InstanceIndex}
    {geometry : GeometryId}
    {material : MaterialId}
    {pair : SharedPair}
    (looked : index.get? geometry material = some pair) :
    pair ∈ index.pairs := by
  obtain ⟨place, _, here⟩ := Option.bind_eq_some_iff.mp looked
  exact List.mem_of_getElem? here

/-- The table leads from a pair to a place exactly if the entry of the pair stands there. -/
def Indexed (index : InstanceIndex) : Prop :=
  ∀ key place,
    index.places.lookup key = some place ↔ index.pairs[place]?.map (·.key) = some key

variable {index : InstanceIndex} {geometry : GeometryId} {material : MaterialId}

/-- In a table, every key stands at one place at most. -/
theorem Indexed.unique
    (indexed : Indexed index)
    {place other : Nat}
    {pair also : SharedPair}
    (here : index.pairs[place]? = some pair)
    (there : index.pairs[other]? = some also)
    (same : pair.key = also.key) :
    place = other := by
  have first := (indexed pair.key place).mpr (by rw [here]; rfl)
  have second := (indexed pair.key other).mpr (by rw [there, same]; rfl)
  exact Option.some.inj (first.symm.trans second)

/-- An index without entries has an empty table. -/
theorem indexed_nothing :
    Indexed {} := by
  intro key place
  simp

/-- In a table made of entries with different keys, a key leads to its entry, wherever the count of
places starts. -/
theorem lookup_zipIdx
    {pairs : List SharedPair}
    (distinct : (pairs.map (·.key)).Nodup)
    (start : Nat)
    (key : GeometryId × MaterialId)
    (place : Nat) :
    ((pairs.zipIdx start).map fun entry => (entry.1.key, entry.2)).lookup key = some place ↔
      start ≤ place ∧ pairs[place - start]?.map (·.key) = some key := by
  induction pairs generalizing start with
  | nil => simp
  | cons pair rest ih =>
      obtain ⟨fresh, others⟩ := List.nodup_cons.mp distinct
      rw [List.zipIdx_cons, List.map_cons]
      by_cases same : key = pair.key
      · subst same
        rw [List.lookup_cons_self]
        constructor
        · rintro ⟨⟩
          simp
        · rintro ⟨least, found⟩
          rcases Nat.eq_or_lt_of_le least with rfl | before
          · rfl
          · obtain ⟨later, rfl⟩ := Nat.exists_eq_add_of_lt before
            rw [Nat.add_assoc, Nat.add_sub_cancel_left, List.getElem?_cons_succ] at found
            obtain ⟨other, there, known⟩ := Option.map_eq_some_iff.mp found
            exact absurd (List.mem_map.mpr ⟨other, List.mem_of_getElem? there, known⟩) fresh
      · rw [List.lookup_cons, beq_false_of_ne same]
        simp only
        rw [ih others]
        constructor
        · rintro ⟨least, found⟩
          obtain ⟨later, rfl⟩ := Nat.exists_eq_add_of_le least
          refine ⟨Nat.le_of_succ_le least, ?_⟩
          rw [Nat.add_sub_cancel_left] at found
          rwa [Nat.add_assoc, Nat.add_sub_cancel_left, Nat.add_comm 1, List.getElem?_cons_succ]
        · rintro ⟨least, found⟩
          rcases Nat.eq_or_lt_of_le least with rfl | before
          · rw [Nat.sub_self, List.getElem?_cons_zero] at found
            exact absurd (Option.some.inj found).symm same
          · obtain ⟨later, rfl⟩ := Nat.exists_eq_add_of_lt before
            rw [Nat.add_assoc, Nat.add_sub_cancel_left, List.getElem?_cons_succ] at found
            refine ⟨before, ?_⟩
            rwa [Nat.add_right_comm, Nat.add_sub_cancel_left]

/-- The index of entries with different keys leads to each of them. -/
theorem indexed_ofPairs
    {pairs : List SharedPair}
    (distinct : (pairs.map (·.key)).Nodup) :
    Indexed (ofPairs pairs) := by
  intro key place
  rw [ofPairs, lookup_zipIdx distinct 0 key place, Nat.sub_zero, and_iff_right (Nat.zero_le place)]

/-- Counting at the place of an entry counts for its pair. -/
theorem Indexed.modify_eq
    (indexed : Indexed index)
    {place : Nat}
    (found : index.places.lookup (geometry, material) = some place) :
    (index.pairs.modify place fun pair => { pair with count := pair.count + 1 }) =
      index.pairs.map fun pair =>
        if pair.isFor geometry material then { pair with count := pair.count + 1 } else pair := by
  have here := (indexed _ place).mp found
  refine List.ext_getElem? fun other => ?_
  rw [List.getElem?_modify, List.getElem?_map, Option.map_eq_map]
  cases listed : index.pairs[other]? with
  | none => rfl
  | some pair =>
      obtain ⟨entry, there, known⟩ := Option.map_eq_some_iff.mp here
      refine congrArg some ?_
      beta_reduce
      by_cases same : place = other
      · subst same
        obtain rfl := Option.some.inj (there.symm.trans listed)
        rw [if_pos rfl, if_pos (SharedPair.isFor_iff.mpr known)]
      · rw [if_neg same, if_neg]
        intro wanted
        exact same (indexed.unique there listed (known.trans (SharedPair.isFor_iff.mp wanted).symm))

/-- Counting keeps the table. -/
theorem Indexed.count
    (indexed : Indexed index)
    (place : Nat) :
    Indexed
      { index with
        pairs := index.pairs.modify place fun pair => { pair with count := pair.count + 1 } } := by
  intro key other
  rw [indexed key other, List.getElem?_modify, Option.map_eq_map, Option.map_map]
  refine Eq.congr_left (congrArg (fun read => Option.map read _) (funext fun pair => ?_))
  rw [Function.comp_apply]
  split <;> rfl

/-- A pair that the table does not know has no entry. -/
theorem Indexed.fresh
    (indexed : Indexed index)
    (unknown : index.places.lookup (geometry, material) = none) :
    ∀ pair ∈ index.pairs, pair.key ≠ (geometry, material) := by
  rintro pair listed same
  obtain ⟨place, here⟩ := List.mem_iff_getElem?.mp listed
  rw [(indexed _ place).mpr (by rw [here, Option.map_some, same])] at unknown
  cases unknown

/-- A new entry comes with a new place in the table. -/
theorem Indexed.add
    (indexed : Indexed index)
    {pair : SharedPair}
    (fresh : ∀ other ∈ index.pairs, other.key ≠ pair.key) :
    Indexed
      { pairs := index.pairs ++ [pair], places := (pair.key, index.pairs.length) :: index.places } := by
  intro key place
  rw [List.getElem?_append]
  by_cases same : key = pair.key
  · subst same
    rw [List.lookup_cons_self]
    split
    next inside =>
      rw [List.getElem?_eq_getElem inside, Option.map_some, Option.some.injEq, Option.some.injEq]
      exact iff_of_false (Nat.ne_of_gt inside) (fresh _ (List.getElem_mem inside))
    next outside =>
      rw [Option.some.injEq]
      constructor
      · rintro rfl
        simp
      · intro found
        obtain ⟨_, here, _⟩ := Option.map_eq_some_iff.mp found
        have single := (List.getElem?_eq_some_iff.mp here).1
        rw [List.length_singleton] at single
        omega
  · rw [List.lookup_cons, beq_false_of_ne same]
    simp only
    rw [indexed key place]
    split
    next => rfl
    next outside =>
      rw [List.getElem?_eq_none (Nat.le_of_not_lt outside)]
      constructor
      · rintro ⟨⟩
      · intro found
        obtain ⟨other, here, known⟩ := Option.map_eq_some_iff.mp found
        have last := List.mem_singleton.mp (List.mem_of_getElem? here)
        exact absurd (known.symm.trans (congrArg SharedPair.key last)) same

end InstanceIndex

/-- What recording a node makes of the entries. -/
inductive Recorded (pairs : List SharedPair) (node : Node) : List SharedPair → Prop
  /-- The pair of the node is listed already. -/
  | count
      {geometry : GeometryId}
      {material : MaterialId}
      (drawn : node.draws geometry material = true)
      (known : ∃ pair ∈ pairs, pair.key = (geometry, material)) :
      Recorded pairs node
        (pairs.map fun pair =>
          if pair.isFor geometry material then { pair with count := pair.count + 1 } else pair)
  /-- The node is the first to draw its pair. -/
  | add
      {geometry : GeometryId}
      {material : MaterialId}
      (drawn : node.draws geometry material = true)
      (fresh : ∀ pair ∈ pairs, pair.key ≠ (geometry, material))
      (attempt : Nat)
      (own : Text.numbered "" (componentName node.name) attempt ∉ pairs.map (·.name)) :
      Recorded pairs node
        (pairs ++ [⟨geometry, material, 1,
          Text.numbered "" (componentName node.name) attempt, nodeExpression node.name⟩])
  /-- The node draws no pair. -/
  | skip (undrawn : ∀ geometry material, node.draws geometry material = false) :
      Recorded pairs node pairs

/-- Recording a node keeps the table in step with the entries and counts or adds at most one. -/
theorem recorded
    {index : InstanceIndex}
    (indexed : index.Indexed)
    (node : Node) :
    (index.recordNode node).Indexed ∧ Recorded index.pairs node (index.recordNode node).pairs := by
  unfold InstanceIndex.recordNode
  split
  next geometry material plain hasGeometry hasMaterial =>
    have drawn : node.draws geometry material = true :=
      Node.draws_iff.mpr ⟨plain, hasGeometry, hasMaterial⟩
    unfold InstanceIndex.recordPair
    split
    next place found =>
      refine ⟨indexed.count place, ?_⟩
      obtain ⟨pair, here, same⟩ := Option.map_eq_some_iff.mp ((indexed _ place).mp found)
      rw [indexed.modify_eq found]
      exact .count drawn ⟨pair, List.mem_of_getElem? here, same⟩
    next unknown =>
      have fresh := indexed.fresh unknown
      obtain ⟨attempt, named, own, _⟩ :=
        Text.firstFree_spec (Text.numbered_injective "" (componentName node.name))
          (index.pairs.map (·.name))
      simp only [named]
      exact ⟨indexed.add fresh, .add drawn fresh attempt own⟩
  next other =>
    refine ⟨indexed, .skip fun geometry material => ?_⟩
    rw [← Bool.not_eq_true]
    intro drawn
    obtain ⟨plain, hasGeometry, hasMaterial⟩ := Node.draws_iff.mp drawn
    exact other geometry material plain hasGeometry hasMaterial

/-- The entries count the plain meshes among the nodes. -/
structure Tallied (nodes : List Node) (pairs : List SharedPair) : Prop where
  keys : (pairs.map (·.key)).Nodup
  names : (pairs.map (·.name)).Nodup
  counted : ∀ pair ∈ pairs, pair.count = drawings nodes pair
  complete :
    ∀ node ∈ nodes, ∀ geometry material, node.draws geometry material = true →
      ∃ pair ∈ pairs, pair.key = (geometry, material)
  used : ∀ pair ∈ pairs, 0 < pair.count
  /-- The expression of an entry reaches a mesh that draws the pair, by the mesh's own name. -/
  reached :
    ∀ pair ∈ pairs, ∃ node ∈ nodes,
      node.draws pair.geometry pair.material = true ∧ pair.node = nodeExpression node.name

section Steps

variable {nodes : List Node} {pairs : List SharedPair} {node : Node} {geometry : GeometryId}
  {material : MaterialId}

theorem tallied_nil :
    Tallied [] [] :=
  ⟨List.nodup_nil, List.nodup_nil, by simp, by simp, by simp, by simp⟩

/-- One more node draws a pair once more or not at all. -/
theorem drawings_append
    (nodes : List Node)
    (node : Node)
    (pair : SharedPair) :
    drawings (nodes ++ [node]) pair =
      drawings nodes pair + if node.draws pair.geometry pair.material then 1 else 0 := by
  rw [drawings, List.countP_append, List.countP_singleton]
  rfl

/-- A node that draws one pair draws the pair of an entry exactly if the entry is for it. -/
theorem draws_iff_key
    (drawn : node.draws geometry material = true)
    (pair : SharedPair) :
    node.draws pair.geometry pair.material = pair.isFor geometry material := by
  rw [Bool.eq_iff_iff, SharedPair.isFor_iff]
  constructor
  · exact fun also => Node.draws_unique also drawn
  · intro same
    cases same
    exact drawn

/-- Raising the count of a listed pair keeps the tally. -/
theorem Tallied.count
    (tallied : Tallied nodes pairs)
    (drawn : node.draws geometry material = true)
    (known : ∃ pair ∈ pairs, pair.key = (geometry, material)) :
    Tallied (nodes ++ [node])
      (pairs.map fun pair =>
        if pair.isFor geometry material then { pair with count := pair.count + 1 } else pair) := by
  have keys :
      ∀ pair : SharedPair,
        (if pair.isFor geometry material then { pair with count := pair.count + 1 }
          else pair).key = pair.key := by
    intro pair
    split <;> rfl
  have names :
      ∀ pair : SharedPair,
        (if pair.isFor geometry material then { pair with count := pair.count + 1 }
          else pair).name = pair.name := by
    intro pair
    split <;> rfl
  refine ⟨?_, ?_, ?_, ?_, ?_, ?_⟩
  · rw [List.map_map]
    exact (List.map_congr_left fun pair _ => keys pair) ▸ tallied.keys
  · rw [List.map_map]
    exact (List.map_congr_left fun pair _ => names pair) ▸ tallied.names
  · intro pair listed
    obtain ⟨before, member, rfl⟩ := List.mem_map.mp listed
    have counted := tallied.counted before member
    split
    next here =>
      show before.count + 1 = drawings (nodes ++ [node]) before
      rw [counted, drawings_append, draws_iff_key drawn, if_pos here]
    next elsewhere =>
      rw [counted, drawings_append, draws_iff_key drawn, if_neg elsewhere]
      rfl
  · intro other listed otherGeometry otherMaterial draws
    have before : ∃ pair ∈ pairs, pair.key = (otherGeometry, otherMaterial) := by
      rcases List.mem_append.mp listed with old | last
      · exact tallied.complete other old _ _ draws
      · rw [List.mem_singleton.mp last] at draws
        exact Node.draws_unique draws drawn ▸ known
    obtain ⟨pair, member, same⟩ := before
    exact ⟨_, List.mem_map_of_mem member, (keys pair).trans same⟩
  · intro pair listed
    obtain ⟨before, member, rfl⟩ := List.mem_map.mp listed
    split
    next => exact Nat.succ_pos _
    next => exact tallied.used before member
  · intro pair listed
    obtain ⟨before, member, rfl⟩ := List.mem_map.mp listed
    obtain ⟨mesh, seen, draws⟩ := tallied.reached before member
    refine ⟨mesh, List.mem_append_left _ seen, ?_⟩
    split
    next => exact draws
    next => exact draws

/-- A pair without an entry was not drawn yet. -/
theorem Tallied.undrawn
    (tallied : Tallied nodes pairs)
    (fresh : ∀ pair ∈ pairs, pair.key ≠ (geometry, material)) :
    ∀ other ∈ nodes, ¬ other.draws geometry material = true := by
  intro other member draws
  obtain ⟨pair, listed, same⟩ := tallied.complete other member _ _ draws
  exact fresh pair listed same

/-- The first mesh of a pair adds an entry. -/
theorem Tallied.add
    (tallied : Tallied nodes pairs)
    (drawn : node.draws geometry material = true)
    (fresh : ∀ pair ∈ pairs, pair.key ≠ (geometry, material))
    {name : String}
    (own : name ∉ pairs.map (·.name)) :
    Tallied (nodes ++ [node])
      (pairs ++ [⟨geometry, material, 1, name, nodeExpression node.name⟩]) := by
  refine ⟨?_, ?_, ?_, ?_, ?_, ?_⟩
  · rw [List.map_append, List.map_singleton, ← List.concat_eq_append]
    refine tallied.keys.concat fun listed => ?_
    obtain ⟨pair, member, same⟩ := List.mem_map.mp listed
    exact fresh pair member same
  · rw [List.map_append, List.map_singleton, ← List.concat_eq_append]
    exact tallied.names.concat own
  · intro pair listed
    rw [drawings_append]
    rcases List.mem_append.mp listed with old | last
    · have apart : pair.isFor geometry material = false := by
        rw [← Bool.not_eq_true, SharedPair.isFor_iff]
        exact fresh pair old
      rw [tallied.counted pair old, draws_iff_key drawn, apart]
      rfl
    · rw [List.mem_singleton.mp last, if_pos drawn, drawings,
        List.countP_eq_zero.mpr (tallied.undrawn fresh)]
  · intro other listed otherGeometry otherMaterial draws
    rcases List.mem_append.mp listed with old | last
    · obtain ⟨pair, member, same⟩ := tallied.complete other old _ _ draws
      exact ⟨pair, List.mem_append_left _ member, same⟩
    · rw [List.mem_singleton.mp last] at draws
      exact ⟨_, List.mem_append_right _ (List.mem_singleton.mpr rfl),
        Node.draws_unique drawn draws⟩
  · intro pair listed
    rcases List.mem_append.mp listed with old | last
    · exact tallied.used pair old
    · rw [List.mem_singleton.mp last]
      exact Nat.one_pos
  · intro pair listed
    rcases List.mem_append.mp listed with old | last
    · obtain ⟨mesh, seen, draws⟩ := tallied.reached pair old
      exact ⟨mesh, List.mem_append_left _ seen, draws⟩
    · rw [List.mem_singleton.mp last]
      exact ⟨node, List.mem_append_right _ (List.mem_singleton.mpr rfl), drawn, rfl⟩

/-- A node that draws no pair leaves the tally as it is. -/
theorem Tallied.skip
    (tallied : Tallied nodes pairs)
    (undrawn : ∀ geometry material, node.draws geometry material = false) :
    Tallied (nodes ++ [node]) pairs where
  keys := tallied.keys
  names := tallied.names
  counted := by
    intro pair listed
    rw [tallied.counted pair listed, drawings_append, undrawn]
    rfl
  complete := by
    intro other listed geometry material draws
    rcases List.mem_append.mp listed with old | last
    · exact tallied.complete other old _ _ draws
    · rw [List.mem_singleton.mp last, undrawn] at draws
      cases draws
  used := tallied.used
  reached := by
    intro pair listed
    obtain ⟨mesh, seen, draws⟩ := tallied.reached pair listed
    exact ⟨mesh, List.mem_append_left _ seen, draws⟩

/-- Recording a node keeps the tally. -/
theorem Tallied.record
    {index : InstanceIndex}
    (tallied : Tallied nodes index.pairs)
    (indexed : index.Indexed)
    (node : Node) :
    Tallied (nodes ++ [node]) (index.recordNode node).pairs := by
  obtain ⟨_, step⟩ := recorded indexed node
  generalize (index.recordNode node).pairs = after at step ⊢
  cases step with
  | count drawn known => exact tallied.count drawn known
  | add drawn fresh _ own => exact tallied.add drawn fresh own
  | skip undrawn => exact tallied.skip undrawn

/-- The entries and the table are right after any number of nodes. -/
theorem Tallied.record_all
    {index : InstanceIndex}
    (tallied : Tallied nodes index.pairs)
    (indexed : index.Indexed)
    (more : List Node) :
    (more.foldl InstanceIndex.recordNode index).Indexed ∧
      Tallied (nodes ++ more) (more.foldl InstanceIndex.recordNode index).pairs := by
  -- Induction on the nodes to come, for any tally of those that were looked at before.
  induction more generalizing nodes index with
  | nil =>
      rw [List.append_nil]
      exact ⟨indexed, tallied⟩
  | cons node rest ih =>
      have next := ih (tallied.record indexed node) (recorded indexed node).1
      rwa [List.append_assoc, List.singleton_append] at next

/-- The index holds what the nodes draw, from the first node on. -/
theorem tallied_scan
    (nodes : List Node) :
    (nodes.foldl InstanceIndex.recordNode {}).Indexed ∧
      Tallied nodes (nodes.foldl InstanceIndex.recordNode {}).pairs := by
  have start : Tallied [] ({} : InstanceIndex).pairs := tallied_nil
  exact start.record_all InstanceIndex.indexed_nothing nodes

end Steps

namespace InstanceIndex

/-- The nodes that the scan for pairs looks at. -/
def scanned (graph : SceneGraph) : List Node :=
  (graph.outsideBones SceneGraph.root).map graph.node

/-- All pairs that the scan finds, before those with a single mesh are dropped. -/
def found (graph : SceneGraph) : List SharedPair :=
  ((scanned graph).foldl recordNode {}).pairs

section Analyzed

variable {graph : SceneGraph} {options : Options} {pair : SharedPair}

/-- What the scan has found is a tally of the nodes that it looked at. -/
theorem tallied_found
    (graph : SceneGraph) :
    Tallied (scanned graph) (found graph) :=
  (tallied_scan (scanned graph)).2

/-- The index keeps the pairs that are drawn more than once, or all of them. -/
theorem pairs_analyze
    (graph : SceneGraph)
    (options : Options) :
    (analyze graph options).pairs =
      (found graph).filter fun pair => options.instanceAll || decide (pair.count > 1) := by
  have scan :
      (graph.outsideBones SceneGraph.root).foldl
          (fun (index : InstanceIndex) id => index.recordNode (graph.node id)) {} =
        (scanned graph).foldl recordNode {} := by
    rw [scanned, List.foldl_map]
  rw [analyze, scan, ofPairs, found]
  cases options.instanceAll with
  | true => simp
  | false => simp

/-- The entries of the index are the pairs found that are drawn more than once, or all of them. -/
theorem mem_analyze :
    pair ∈ (analyze graph options).pairs ↔
      pair ∈ found graph ∧ (options.instanceAll = true ∨ 1 < pair.count) := by
  rw [pairs_analyze, List.mem_filter, Bool.or_eq_true, decide_eq_true_eq]

/-- No two entries have one name. -/
theorem names_analyze
    (graph : SceneGraph)
    (options : Options) :
    ((analyze graph options).pairs.map (·.name)).Nodup := by
  rw [pairs_analyze]
  exact (tallied_found graph).names.sublist (List.filter_sublist.map _)

/-- No two entries have one pair. -/
theorem keys_analyze
    (graph : SceneGraph)
    (options : Options) :
    ((analyze graph options).pairs.map (·.key)).Nodup := by
  rw [pairs_analyze]
  exact (tallied_found graph).keys.sublist (List.filter_sublist.map _)

/-- The count of an entry is the number of nodes that draw its pair. -/
theorem count_of_mem
    (listed : pair ∈ (analyze graph options).pairs) :
    pair.count = drawings (scanned graph) pair :=
  (tallied_found graph).counted pair (mem_analyze.mp listed).1

/-- After the entries are dropped, the table leads to those that are left. -/
theorem indexed_analyze
    (graph : SceneGraph)
    (options : Options) :
    Indexed (analyze graph options) :=
  indexed_ofPairs (keys_analyze graph options)

/-- An entry is looked up by its geometry and its material. -/
theorem get?_analyze
    {geometry : GeometryId}
    {material : MaterialId} :
    (analyze graph options).get? geometry material = some pair ↔
      pair ∈ (analyze graph options).pairs ∧ pair.key = (geometry, material) := by
  have indexed := indexed_analyze graph options
  rw [get?, Option.bind_eq_some_iff]
  constructor
  · rintro ⟨place, found, here⟩
    have known := (indexed _ place).mp found
    rw [here] at known
    exact ⟨List.mem_of_getElem? here, Option.some.inj known⟩
  · rintro ⟨listed, same⟩
    obtain ⟨place, here⟩ := List.mem_iff_getElem?.mp listed
    refine ⟨place, (indexed _ place).mpr ?_, here⟩
    rw [here, Option.map_some, same]

end Analyzed

end InstanceIndex

/-- A node is drawn through an entry of the index if it draws that pair. -/
theorem Labels.sharedPair?_analyze
    {graph other : SceneGraph}
    {options : Options}
    (instancing : options.instancing = true)
    {id : NodeId}
    {pair : SharedPair} :
    (Labels.ofGraph other (InstanceIndex.analyze graph options) options).sharedPair? id =
        some pair ↔
      pair ∈ (InstanceIndex.analyze graph options).pairs ∧
        (other.node id).draws pair.geometry pair.material = true := by
  -- The lookup asks for as many meshes as the index does, so every entry passes.
  have passes :
      ∀ pair ∈ (InstanceIndex.analyze graph options).pairs,
        (if options.instanceAll then 0 else 1) < pair.count := by
    intro pair listed
    obtain ⟨found, wanted⟩ := InstanceIndex.mem_analyze.mp listed
    have used := (InstanceIndex.tallied_found graph).used pair found
    split
    next => exact used
    next single => exact wanted.resolve_left single
  unfold Labels.sharedPair?
  simp only [Labels.ofGraph, instancing, Bool.true_and]
  constructor
  · intro shared
    split at shared
    next geometry material plain hasGeometry hasMaterial =>
      obtain ⟨looked, _⟩ := Option.filter_eq_some_iff.mp shared
      obtain ⟨listed, same⟩ := InstanceIndex.get?_analyze.mp looked
      cases same
      exact ⟨listed, Node.draws_iff.mpr ⟨plain, hasGeometry, hasMaterial⟩⟩
    next => cases shared
  · rintro ⟨listed, drawn⟩
    obtain ⟨plain, hasGeometry, hasMaterial⟩ := Node.draws_iff.mp drawn
    have looked := InstanceIndex.get?_analyze.mpr ⟨listed, rfl⟩
    rw [plain, hasGeometry, hasMaterial]
    exact Option.filter_eq_some_iff.mpr ⟨looked, decide_eq_true (passes pair listed)⟩

end SceneMarkup.Scene
