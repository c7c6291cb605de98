import Mathlib.Data.Set.Card
import SceneMarkup.Scene.Merging

namespace SceneMarkup.Scene

/-!
# Merging points at the first of a class

The entries of a table whose content is known fall into classes of equal content.
After a pass over the first entries the firsts of their classes are known, and every
other entry passed is redirected to one of them.  So a reference to an entry with
content becomes a reference to the first one of its class, and any other reference
stays.  No redirection leads to an entry that is redirected itself, so that merging
once more changes nothing.
-/

/-- The content known of the entry at a place of a table. -/
def contentAt (content : α → Option κ) (table : Array α) (index : Nat) : Option κ :=
  table[index]?.bind content

/-- The places whose content is the given one. -/
def classOf (known : Nat → Option κ) (content : κ) : Set Nat :=
  {index | known index = some content}

/-- The places that are not the first of their class. -/
def repeated (known : Nat → Option κ) : Set Nat :=
  {index | ∃ content, known index = some content ∧ ¬ IsLeast (classOf known content) index}

/-- References to what is known lead to the first of its class, and all others stay. -/
structure Redirects (known : Nat → Option κ) (before after : Option Nat) : Prop where
  first :
    ∀ index content, before = some index → known index = some content →
      ∃ first, after = some first ∧ IsLeast (classOf known content) first
  other : (∀ index, before = some index → known index = none) → after = before

/-- A class with a place has a first place, which is not behind it. -/
theorem exists_isLeast_classOf
    {known : Nat → Option κ}
    {content : κ}
    {index : Nat}
    (here : known index = some content) :
    ∃ first ≤ index, IsLeast (classOf known content) first := by
  induction index using Nat.strongRecOn with
  | ind index ih =>
      by_cases earlier : ∃ before < index, known before = some content
      · obtain ⟨before, lower, same⟩ := earlier
        obtain ⟨first, least, isLeast⟩ := ih before lower same
        exact ⟨first, least.trans lower.le, isLeast⟩
      · refine ⟨index, le_rfl, here, fun other same => ?_⟩
        by_contra before
        exact earlier ⟨other, Nat.lt_of_not_le before, same⟩

/-- Content is known of entries of the table only. -/
theorem lt_size_of_contentAt
    {content : α → Option κ}
    {table : Array α}
    {index : Nat}
    {known : κ}
    (here : contentAt content table index = some known) :
    index < table.size := by
  by_contra outside
  rw [contentAt, Array.getElem?_eq_none (Nat.le_of_not_lt outside)] at here
  cases here

/-- One more place is passed, which is not the place spoken of. -/
theorem passed_congr
    {index passed : Nat}
    {property : Prop}
    (apart : property → index ≠ passed) :
    index < passed ∧ property ↔ index < passed + 1 ∧ property :=
  and_congr_left fun holds =>
    ⟨Nat.lt_succ_of_lt, fun before => Nat.lt_of_le_of_ne (Nat.le_of_lt_succ before) (apart holds)⟩

section Passes

variable {κ : Type} [DecidableEq κ] {known : Nat → Option κ} {passed : Nat} {classes : Classes κ}

/-- A pass over the first places has found the firsts of all classes met, and redirects the other
places to them. -/
structure Classified (known : Nat → Option κ) (passed : Nat) (classes : Classes κ) : Prop where
  firsts :
    ∀ content first,
      classes.firsts.lookup content = some first ↔
        first < passed ∧ IsLeast (classOf known content) first
  redirects :
    ∀ index first,
      classes.redirects.lookup index = some first ↔
        index < passed ∧ first ≠ index ∧
          ∃ content, known index = some content ∧ IsLeast (classOf known content) first
  distinct : (classes.redirects.map (·.1)).Nodup
  counted : classes.merged = classes.redirects.length

theorem classified_nothing
    (known : Nat → Option κ) :
    Classified known 0 {} :=
  ⟨by simp, by simp, List.nodup_nil, rfl⟩

/-- What is redirected was met before. -/
theorem Classified.lt_of_redirected
    (classified : Classified known passed classes)
    {index : Nat}
    (listed : index ∈ classes.redirects.map (·.1)) :
    index < passed := by
  obtain ⟨⟨_, first⟩, member, rfl⟩ := List.mem_map.mp listed
  have known := List.lookup_isSome_iff.mpr ⟨_, member, beq_self_eq_true _⟩
  obtain ⟨first, found⟩ := Option.isSome_iff_exists.mp known
  exact ((classified.redirects _ first).mp found).1

/-- An entry without content is passed over. -/
theorem Classified.skip
    (classified : Classified known passed classes)
    (nothing : known passed = none) :
    Classified known (passed + 1) classes where
  firsts := by
    intro content first
    rw [classified.firsts]
    refine passed_congr fun least => ?_
    rintro rfl
    exact absurd (nothing.symm.trans least.1) (by simp)
  redirects := by
    intro index first
    rw [classified.redirects]
    refine passed_congr fun ⟨_, content, here, _⟩ => ?_
    rintro rfl
    exact absurd (nothing.symm.trans here) (by simp)
  distinct := classified.distinct
  counted := classified.counted

/-- The first entry of a class is remembered. -/
theorem Classified.found
    (classified : Classified known passed classes)
    {content : κ}
    (here : known passed = some content)
    (fresh : classes.firsts.lookup content = none) :
    Classified known (passed + 1)
      { classes with firsts := (content, passed) :: classes.firsts } := by
  have isFirst : IsLeast (classOf known content) passed := by
    obtain ⟨first, before, least⟩ := exists_isLeast_classOf here
    rcases Nat.lt_or_eq_of_le before with lower | rfl
    · rw [(classified.firsts content first).mpr ⟨lower, least⟩] at fresh
      cases fresh
    · exact least
  refine ⟨fun other first => ?_, fun index first => ?_, classified.distinct, classified.counted⟩
  · rw [List.lookup_cons]
    by_cases same : other = content
    · subst same
      rw [beq_self_eq_true]
      constructor
      · rintro ⟨⟩
        exact ⟨Nat.lt_succ_self _, isFirst⟩
      · exact fun least => congrArg some (isFirst.unique least.2)
    · rw [beq_false_of_ne same, classified.firsts]
      refine passed_congr fun least => ?_
      rintro rfl
      exact same (Option.some.inj (least.1.symm.trans here))
  · rw [classified.redirects]
    refine passed_congr fun ⟨differ, other, known, least⟩ => ?_
    rintro rfl
    obtain rfl := Option.some.inj (here.symm.trans known)
    exact differ (least.unique isFirst)

/-- A later entry of a class is redirected to the first. -/
theorem Classified.redirected
    (classified : Classified known passed classes)
    {content : κ}
    {first : Nat}
    (here : known passed = some content)
    (met : classes.firsts.lookup content = some first) :
    first ≠ passed ∧
      Classified known (passed + 1)
        { classes with
          redirects := (passed, first) :: classes.redirects
          merged := classes.merged + 1 } := by
  obtain ⟨before, isFirst⟩ := (classified.firsts content first).mp met
  refine ⟨Nat.ne_of_lt before, fun other least => ?_, fun index least => ?_, ?_, ?_⟩
  · rw [classified.firsts]
    refine passed_congr fun isLeast => ?_
    rintro rfl
    obtain rfl := Option.some.inj (here.symm.trans isLeast.1)
    exact Nat.ne_of_lt before (isFirst.unique isLeast)
  · rw [List.lookup_cons]
    by_cases same : index = passed
    · subst same
      rw [beq_self_eq_true]
      constructor
      · rintro ⟨⟩
        exact ⟨Nat.lt_succ_self _, Nat.ne_of_lt before, content, here, isFirst⟩
      · rintro ⟨_, _, other, known, isLeast⟩
        obtain rfl := Option.some.inj (here.symm.trans known)
        exact congrArg some (isFirst.unique isLeast)
    · rw [beq_false_of_ne same, classified.redirects]
      exact passed_congr fun _ => same
  · exact List.nodup_cons.mpr
      ⟨fun listed => Nat.lt_irrefl _ (classified.lt_of_redirected listed), classified.distinct⟩
  · exact congrArg (· + 1) classified.counted

/-- One step of the pass. -/
theorem Classified.visit
    (classified : Classified known passed classes) :
    Classified known (passed + 1) (classes.visit passed (known passed)) := by
  cases here : known passed with
  | none => exact classified.skip here
  | some content =>
      rw [Classes.visit]
      cases met : classes.firsts.lookup content with
      | none =>
          simp only [Option.isSome_none, Bool.false_eq_true, if_false, Option.getD_none, if_true]
          exact classified.found here met
      | some first =>
          obtain ⟨differs, next⟩ := classified.redirected here met
          simp only [Option.isSome_some, if_true, Option.getD_some, if_neg differs]
          exact next

/-- The pass over the rest of a table. -/
theorem Classified.foldl
    {content : α → Option κ}
    (entries : List α)
    (classified : Classified known passed classes)
    (listed : ∀ place, known (passed + place) = entries[place]?.bind content) :
    Classified known (passed + entries.length)
      ((entries.zipIdx passed).foldl
        (fun classes entry => classes.visit entry.2 (content entry.1)) classes) := by
  -- Induction on the entries to come, for any pass over those before them.
  induction entries generalizing passed classes with
  | nil => exact classified
  | cons entry rest ih =>
      have here : known passed = content entry := listed 0
      rw [List.zipIdx_cons, List.foldl_cons, ← here, List.length_cons, ← Nat.add_assoc,
        Nat.add_right_comm]
      refine ih classified.visit fun place => ?_
      rw [Nat.add_right_comm, Nat.add_assoc]
      exact listed (place + 1)

variable {content : α → Option κ} {index : Nat}

/-- The pass over a whole table. -/
theorem classified_ofTable
    (content : α → Option κ)
    (table : Array α) :
    Classified (contentAt content table) table.size (.ofTable content table) := by
  have whole :=
    (classified_nothing (contentAt content table)).foldl table.toList fun place => by
      rw [Nat.zero_add, contentAt, Array.getElem?_toList]
  rwa [Nat.zero_add, Array.length_toList] at whole

/-- An entry whose content is known is redirected to the first of its class. -/
theorem isLeast_redirect
    {table : Array α}
    {known : κ}
    (here : contentAt content table index = some known) :
    IsLeast (classOf (contentAt content table) known)
      ((Classes.ofTable content table).redirect index) := by
  have classified := classified_ofTable content table
  obtain ⟨first, _, least⟩ := exists_isLeast_classOf here
  rw [Classes.redirect]
  by_cases isFirst : first = index
  · cases found : (Classes.ofTable content table).redirects.lookup index with
    | none => exact isFirst ▸ least
    | some other =>
        obtain ⟨_, differs, also, same, otherLeast⟩ := (classified.redirects index other).mp found
        obtain rfl := Option.some.inj (here.symm.trans same)
        exact otherLeast
  · rw [(classified.redirects index first).mpr
      ⟨lt_size_of_contentAt here, isFirst, known, here, least⟩]
    exact least

/-- An entry whose content is not known stays where it is. -/
theorem redirect_of_unknown
    {table : Array α}
    (unknown : contentAt content table index = none) :
    (Classes.ofTable content table).redirect index = index := by
  rw [Classes.redirect]
  cases found : (Classes.ofTable content table).redirects.lookup index with
  | none => rfl
  | some first =>
      obtain ⟨_, _, _, same, _⟩ :=
        ((classified_ofTable content table).redirects index first).mp found
      rw [unknown] at same
      cases same

/-- Entries that are redirected to one place have one content. -/
theorem content_eq_of_redirect
    {table : Array α}
    {first second : Nat}
    {left right : κ}
    (hereFirst : contentAt content table first = some left)
    (hereSecond : contentAt content table second = some right)
    (same :
      (Classes.ofTable content table).redirect first =
        (Classes.ofTable content table).redirect second) :
    left = right := by
  have atFirst : contentAt content table _ = some left := (isLeast_redirect hereFirst).1
  have atSecond : contentAt content table _ = some right := (isLeast_redirect hereSecond).1
  rw [same] at atFirst
  exact Option.some.inj (atFirst.symm.trans atSecond)

/-- No redirection leads to an entry that is redirected itself. -/
theorem redirect_redirect
    (content : α → Option κ)
    (table : Array α)
    (index : Nat) :
    (Classes.ofTable content table).redirect ((Classes.ofTable content table).redirect index) =
      (Classes.ofTable content table).redirect index := by
  cases here : contentAt content table index with
  | none => rw [redirect_of_unknown here, redirect_of_unknown here]
  | some known =>
      have least := isLeast_redirect here
      exact (isLeast_redirect least.1).unique least

/-- The entries redirected are those that are not the first of their class. -/
theorem mem_redirects_iff
    {table : Array α} :
    index ∈ (Classes.ofTable content table).redirects.map (·.1) ↔
      index ∈ repeated (contentAt content table) := by
  have classified := classified_ofTable content table
  have looked :
      index ∈ (Classes.ofTable content table).redirects.map (·.1) ↔
        ∃ first, (Classes.ofTable content table).redirects.lookup index = some first := by
    rw [← Option.isSome_iff_exists, List.lookup_isSome_iff, List.mem_map]
    exact exists_congr fun _ => and_congr_right fun _ => eq_comm.trans beq_iff_eq.symm
  rw [looked]
  constructor
  · rintro ⟨first, found⟩
    obtain ⟨_, differs, known, here, least⟩ := (classified.redirects index first).mp found
    exact ⟨known, here, fun also => differs (least.unique also)⟩
  · rintro ⟨known, here, notFirst⟩
    obtain ⟨first, _, least⟩ := exists_isLeast_classOf here
    refine ⟨first, (classified.redirects index first).mpr
      ⟨lt_size_of_contentAt here, ?_, known, here, least⟩⟩
    rintro rfl
    exact notFirst least

/-- The count of the pass is the number of entries that are not the first of their class. -/
theorem merged_eq_ncard
    (content : α → Option κ)
    (table : Array α) :
    (Classes.ofTable content table).merged = (repeated (contentAt content table)).ncard := by
  have classified := classified_ofTable content table
  have moved :
      repeated (contentAt content table) =
        (((Classes.ofTable content table).redirects.map (·.1)).toFinset : Set Nat) := by
    ext index
    rw [← mem_redirects_iff, List.coe_toFinset, Set.mem_ofPred_eq]
  rw [moved, Set.ncard_coe_finset, List.toFinset_card_of_nodup classified.distinct,
    List.length_map, classified.counted]

theorem redirects_redirect
    (content : α → Option κ)
    (table : Array α)
    (reference : Option Nat) :
    Redirects (contentAt content table) reference
      (reference.map (Classes.ofTable content table).redirect) where
  first := by
    rintro index known rfl here
    exact ⟨_, rfl, isLeast_redirect here⟩
  other := by
    intro unknown
    cases reference with
    | none => rfl
    | some index => rw [Option.map_some, redirect_of_unknown (unknown index rfl)]

end Passes

namespace SceneGraph

variable (graph : SceneGraph)

/-- The contents known of the geometries. -/
def geometryContent : Nat → Option Fingerprint :=
  contentAt Geometry.fingerprint graph.geometries

/-- The contents known of the materials; materials of different families differ. -/
def materialContent : Nat → Option (MaterialKind × Fingerprint) :=
  contentAt Material.content graph.materials

theorem node_merge
    (id : NodeId) :
    graph.merge.node id =
      (graph.node id).redirected graph.geometryClasses graph.materialClasses := by
  have absent :
      (default : Node).redirected graph.geometryClasses graph.materialClasses = default := rfl
  simp only [node, merge, Array.getD_eq_getD_getElem?, Array.getElem?_map]
  cases graph.nodes[id]? with
  | none => exact absent.symm
  | some node => rfl

theorem redirected_redirected
    (node : Node) :
    (node.redirected graph.geometryClasses graph.materialClasses).redirected
        graph.geometryClasses graph.materialClasses =
      node.redirected graph.geometryClasses graph.materialClasses := by
  have geometries := redirect_redirect Geometry.fingerprint graph.geometries
  have materials := redirect_redirect Material.content graph.materials
  simp [Node.redirected, geometryClasses, materialClasses, Function.comp_def, geometries,
    materials]

/-- Merging once more changes nothing. -/
theorem merge_merge :
    graph.merge.merge = graph.merge := by
  have nodes :
      (graph.nodes.map fun node => node.redirected graph.geometryClasses graph.materialClasses).map
          (fun node => node.redirected graph.geometryClasses graph.materialClasses) =
        graph.nodes.map fun node =>
          node.redirected graph.geometryClasses graph.materialClasses := by
    rw [Array.map_map]
    exact Array.map_congr_left fun node _ => graph.redirected_redirected node
  exact congrArg (fun nodes => { graph with nodes := nodes }) nodes

end SceneGraph

/--
Merging points at the first of a class and changes nothing else.  Every node refers
to the first geometry with the fingerprint of its own, if that has one, and to the
first material of the family and with the fingerprint of its own; all other
references, the rest of every node, the tables, the clips and the notes stay.  What
is reported are the entries that are not the first of their class, and merging a
second time changes nothing.
-/
theorem merge_redirects
    (graph : SceneGraph) :
    let merged := graph.merge
    (∀ id,
      Redirects graph.geometryContent (graph.node id).geometry (merged.node id).geometry ∧
        Redirects graph.materialContent (graph.node id).material (merged.node id).material ∧
        { merged.node id with
          geometry := (graph.node id).geometry
          material := (graph.node id).material } = graph.node id) ∧
      merged.size = graph.size ∧
      { merged with nodes := graph.nodes } = graph ∧
      graph.mergeReport.geometries = (repeated graph.geometryContent).ncard ∧
      graph.mergeReport.materials = (repeated graph.materialContent).ncard ∧
      merged.merge = merged := by
  intro merged
  refine ⟨fun id => ?_, Array.size_map, rfl, merged_eq_ncard Geometry.fingerprint _,
    merged_eq_ncard Material.content _, graph.merge_merge⟩
  rw [graph.node_merge id]
  exact ⟨redirects_redirect Geometry.fingerprint graph.geometries _,
    redirects_redirect Material.content graph.materials _, rfl⟩

end SceneMarkup.Scene
