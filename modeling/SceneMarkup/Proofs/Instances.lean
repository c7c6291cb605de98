import SceneMarkup.Proofs.Pairs
import SceneMarkup.Proofs.Sharing

namespace SceneMarkup.Markup

open Scene

/-!
# Instances and their definitions

The tag of an element says whether its node is drawn through an instance.  The
nodes drawn through an entry of the index are the meshes that the entry counts:
all of them are outside of bones, and pruning takes none of them away.
-/

/-- The tag of what is drawn through the instance called `name`. -/
def instanceTag (name : String) : String :=
  "instances." ++ name

section Tags

/-- Different names have different tags. -/
theorem instanceTag_injective :
    Function.Injective instanceTag :=
  fun _ _ same => (String.append_right_inj _).mp same

def typeNames : List String :=
  ["Group", "Object3D", "Mesh", "SkinnedMesh", "InstancedMesh", "Bone", "PerspectiveCamera",
    "OrthographicCamera", "DirectionalLight", "PointLight", "SpotLight", "Line", "LineSegments",
    "LineLoop", "Points"]

/-- The names of types are listed. -/
theorem typeName_mem
    (kind : NodeKind) :
    kind.typeName ∈ typeNames := by
  cases kind with
  | camera camera =>
      show camera.typeName ∈ typeNames
      unfold Camera.typeName
      cases camera.projection <;> simp [typeNames]
  | light light =>
      show light.kind.typeName ∈ typeNames
      cases light.kind <;> simp [LightKind.typeName, typeNames]
  | line kind => cases kind <;> simp [NodeKind.typeName, typeNames]
  | _ => simp [NodeKind.typeName, typeNames]

/-- The tag of a kind has no dot in it. -/
theorem dot_not_mem_tagOf
    (kind : NodeKind) :
    '.' ∉ (tagOf kind).toList := by
  have all : ∀ name ∈ typeNames, '.' ∉ (tagOfTypeName name).toList := by
    decide
  exact all _ (typeName_mem kind)

/-- The tag of a kind is no instance's. -/
theorem tagOf_ne_instanceTag
    (kind : NodeKind)
    (name : String) :
    tagOf kind ≠ instanceTag name := by
  -- The tag of an instance has a dot, and that of a class has none.
  intro same
  refine dot_not_mem_tagOf kind ?_
  rw [same, instanceTag, String.toList_append]
  exact List.mem_append_left _ (by decide)

/-- The tag of a bone's handle is no instance's. -/
theorem primitive_ne_instanceTag
    (name : String) :
    "primitive" ≠ instanceTag name := by
  intro same
  have dot : '.' ∈ "primitive".toList := by
    rw [same, instanceTag, String.toList_append]
    exact List.mem_append_left _ (by decide)
  exact absurd dot (by decide)

end Tags

section Headings

variable {labels : Labels} {id : NodeId} {transform : Transform} {heading : Heading}
  {pair : SharedPair}

/-- Only plain meshes are instances. -/
theorem kind_of_sharedPair
    (shared : labels.sharedPair? id = some pair) :
    (labels.graph.node id).kind = .mesh := by
  unfold Labels.sharedPair? at shared
  cases plain : (labels.graph.node id).kind.isPlainMesh with
  | true => exact kind_of_isPlainMesh plain
  | false => simp [plain] at shared

/-- A node has the tag of an instance exactly if its pair has the name. -/
theorem tagAt_eq_instanceTag
    {name : String} :
    tagAt labels id = instanceTag name ↔
      ∃ pair, labels.sharedPair? id = some pair ∧ pair.name = name := by
  unfold tagAt
  cases shared : labels.sharedPair? id with
  | none => simp [tagOf_ne_instanceTag]
  | some pair =>
      show instanceTag pair.name = instanceTag name ↔ _
      simp [instanceTag_injective.eq_iff]

/-- A heading has the tag of an instance exactly if the pair of its node has the name. -/
theorem tag_eq_instanceTag
    (own : headingAt labels id transform = .ok heading)
    {name : String} :
    heading.tag = instanceTag name ↔
      ∃ pair, labels.sharedPair? id = some pair ∧ pair.name = name := by
  cases heads_of_headingAt own with
  | handle bone =>
      constructor
      · exact fun same => absurd same (primitive_ne_instanceTag name)
      · rintro ⟨pair, shared, _⟩
        rw [kind_of_sharedPair shared] at bone
        cases bone
  | element other printed => exact tagAt_eq_instanceTag

/-- Only geometry and material go by these two names. -/
theorem surface_of_name
    {key : AttributeKey}
    (named : key.name = "geometry" ∨ key.name = "material") :
    key = .geometry ∨ key = .material := by
  revert named
  cases key <;> decide

/-- What is drawn through an instance prints its shadows, its place and its data. -/
theorem key_of_instance
    (shared : labels.sharedPair? id = some pair)
    {attributes : Attributes}
    (printed : attributesAt labels id transform = .ok attributes)
    {entry : Attribute}
    (member : entry ∈ attributes) :
    entry.key = .castShadow ∨ entry.key = .receiveShadow ∨ entry.key.isTransform = true ∨
      entry.key = .userData := by
  have mesh := kind_of_sharedPair shared
  obtain ⟨leading, leadingPrinted, _, parts⟩ := attributesAt_parts printed
  have shadows : leading = (NodeContext.ofLabels labels id).shadowBlock := by
    have instanced : (NodeContext.ofLabels labels id).instanced = true := by
      rw [NodeContext.ofLabels, shared]
      rfl
    have kind : (NodeContext.ofLabels labels id).node.kind = .mesh := mesh
    rw [NodeContext.leadingBlock, instanced, NodeContext.cameraBlock, NodeContext.colorBlock,
      kind] at leadingPrinted
    simpa [Except.map] using (Except.ok.inj leadingPrinted).symm
  rw [parts, shadows] at member
  rcases List.mem_append.mp member with before | data
  · rcases List.mem_append.mp before with shadow | moving
    · unfold NodeContext.shadowBlock at shadow
      split at shadow
      next => rcases List.mem_pair.mp shadow with rfl | rfl <;> simp [Attribute.flag]
      next => cases shadow
    · exact .inr (.inr (.inl (isTransform_of_mem moving)))
  · unfold NodeContext.dataBlock given at data
    split at data
    next =>
      rw [List.mem_singleton.mp data]
      exact .inr (.inr (.inr rfl))
    next => cases data

/-- What is drawn through an instance says nothing about its surface. -/
theorem surfaceless_of_instance
    (shared : labels.sharedPair? id = some pair)
    (own : headingAt labels id transform = .ok heading)
    {item : WrittenAttribute}
    (member : item ∈ heading.attributes) :
    item.key ≠ "geometry" ∧ item.key ≠ "material" := by
  cases heads_of_headingAt own with
  | handle bone =>
      rw [kind_of_sharedPair shared] at bone
      cases bone
  | element other printed =>
      rw [← not_or]
      intro named
      rcases List.mem_append.mp member with name | written
      · rw [eq_of_mem_nameAttributes name] at named
        simp at named
      · obtain ⟨entry, listed, rfl⟩ := List.mem_map.mp written
        have surface := surface_of_name named
        rcases key_of_instance shared printed listed with key | key | key | key
        all_goals
          rcases surface with same | same
          all_goals
            rw [same] at key
            cases key

end Headings

end SceneMarkup.Markup

namespace SceneMarkup.Component

open Scene Markup Pruning

section Matching

variable {graph : SceneGraph} {options : Options} {kept : NodeId → Bool}
  {place : NodeId → Transform} {headings : List Heading} {pair : SharedPair}

/-- Rows whose members correspond have as many members with corresponding properties. -/
theorem countP_of_forall₂
    {relation : α → β → Prop}
    {first : List α}
    {second : List β}
    {here : α → Bool}
    {there : β → Bool}
    (related : List.Forall₂ relation first second)
    (alike : ∀ item other, relation item other → here item = there other) :
    first.countP here = second.countP there := by
  induction related with
  | nil => rfl
  | cons head _ ih => rw [List.countP_cons, List.countP_cons, ih, alike _ _ head]

/-- A conversion leaves an intact scene intact. -/
theorem Intact.convert
    (intact : Intact graph)
    (linked : graph.Linked)
    (fileName : String)
    (options : Options) :
    Intact (Component.convert fileName graph options).graph := by
  let labels := Labels.ofGraph graph (InstanceIndex.analyze graph options) options
  cases found : (plan labels).result with
  | error fault =>
      have same : (Component.convert fileName graph options).graph = graph := by
        rw [Component.convert, found]
      rw [same]
      exact intact
  | ok decided =>
      have tree : (Component.convert fileName graph options).graph = commit graph decided := by
        rw [Component.convert, found]
      rw [tree]
      have labelsLinked : labels.graph.Linked := linked
      obtain ⟨final, rfl, _, sound⟩ := plan_spec labelsLinked found
      refine ⟨tidy_commit linked _, fun removed => ?_⟩
      have kind :
          ((finalTree labels final).node SceneGraph.root).kind =
            (labels.graph.node SceneGraph.root).kind :=
        kind_finalTree labelsLinked SceneGraph.root
      have group :=
        isGroup_of_isRemoved labelsLinked intact sound (SceneGraph.Reaches.refl _) removed
      exact (congrArg NodeKind.isGroup kind).trans group

/-- The elements of the body, for the nodes that are visible and kept. -/
abbrev BodyOf
    (graph : SceneGraph)
    (options : Options)
    (kept : NodeId → Bool)
    (place : NodeId → Transform)
    (headings : List Heading) :
    Prop :=
  List.Forall₂
    (fun id heading =>
      headingAt (Labels.ofGraph graph (InstanceIndex.analyze graph options) options) id
        (place id) = .ok heading)
    ((visible graph).filter kept) headings

/-- An element is an instance of an entry if its node draws the pair of the entry. -/
theorem tag_iff_draws
    (instancing : options.instancing = true)
    {id : NodeId}
    {transform : Transform}
    {heading : Heading}
    (own :
      headingAt (Labels.ofGraph graph (InstanceIndex.analyze graph options) options) id
        transform = .ok heading)
    (listed : pair ∈ (InstanceIndex.analyze graph options).pairs) :
    heading.tag = instanceTag pair.name ↔
      (graph.node id).draws pair.geometry pair.material = true := by
  rw [tag_eq_instanceTag own]
  constructor
  · rintro ⟨other, shared, same⟩
    obtain ⟨otherListed, drawn⟩ := (Labels.sharedPair?_analyze instancing).mp shared
    have entries :=
      List.inj_on_of_nodup_map (InstanceIndex.names_analyze graph options) otherListed listed same
    exact entries ▸ drawn
  · intro drawn
    exact ⟨pair, (Labels.sharedPair?_analyze instancing).mpr ⟨listed, drawn⟩, rfl⟩

/-- The body holds as many instances of a pair as the pair is counted for. -/
theorem count_instances
    (linked : graph.Linked)
    (instancing : options.instancing = true)
    (body : BodyOf graph options kept place headings)
    (groups :
      ∀ id ∈ visible graph, kept id = false → (graph.node id).kind.isGroup = true)
    (listed : pair ∈ (InstanceIndex.analyze graph options).pairs) :
    headings.countP (fun heading => heading.tag == instanceTag pair.name) = pair.count := by
  have used :
      ((visible graph).filter kept).countP
          (fun id => (graph.node id).draws pair.geometry pair.material) =
        headings.countP fun heading => heading.tag == instanceTag pair.name := by
    refine countP_of_forall₂ body fun id heading own => ?_
    rw [Bool.eq_iff_iff, beq_iff_eq, tag_iff_draws instancing own listed]
  -- The index leaves bones out and the body what is removed; neither is a plain mesh.
  rw [← used, InstanceIndex.count_of_mem listed, drawings, InstanceIndex.scanned,
    outsideBones_root linked, List.countP_map, List.countP_filter, List.countP_filter]
  refine List.countP_congr fun id seen => ?_
  simp only [Function.comp_apply, Bool.and_eq_true]
  refine and_congr_right fun drawn => ?_
  have mesh := kind_of_isPlainMesh (Node.draws_iff.mp drawn).1
  have stays : kept id = true := by
    rw [← Bool.not_eq_false]
    intro lost
    have group := groups id seen lost
    rw [mesh] at group
    cases group
  have notBone : (graph.node id).kind.isBone = false := by
    rw [mesh]
    rfl
  simp [stays, notBone]

/-- An instance that is used has exactly one entry, and its element says nothing about a surface. -/
theorem entry_of_instance
    (instancing : options.instancing = true)
    (body : BodyOf graph options kept place headings)
    {heading : Heading}
    (written : heading ∈ headings)
    {name : String}
    (tagged : heading.tag = instanceTag name) :
    (∃! pair, pair ∈ (InstanceIndex.analyze graph options).pairs ∧ pair.name = name) ∧
      ∀ item ∈ heading.attributes, item.key ≠ "geometry" ∧ item.key ≠ "material" := by
  obtain ⟨id, own⟩ := exists_of_forall₂ body written
  obtain ⟨pair, shared, same⟩ := (tag_eq_instanceTag own).mp tagged
  have listed := ((Labels.sharedPair?_analyze instancing).mp shared).1
  refine ⟨⟨pair, ⟨listed, same⟩, ?_⟩, fun item member =>
    surfaceless_of_instance shared own member⟩
  rintro other ⟨otherListed, otherSame⟩
  exact List.inj_on_of_nodup_map (InstanceIndex.names_analyze graph options) otherListed listed
    (otherSame.trans same.symm)

/-- A pair with a single mesh has an entry only if all pairs are asked for. -/
theorem instanceAll_of_single
    {id : NodeId}
    {geometry : GeometryId}
    {material : MaterialId}
    (instancing : options.instancing = true)
    (drawn : (graph.node id).draws geometry material = true)
    (single :
      (graph.outsideBones SceneGraph.root).countP
        (fun other => (graph.node other).draws geometry material) = 1)
    {name : String}
    (tagged :
      tagAt (Labels.ofGraph graph (InstanceIndex.analyze graph options) options) id =
        instanceTag name) :
    options.instanceAll = true := by
  obtain ⟨pair, shared, _⟩ := tagAt_eq_instanceTag.mp tagged
  obtain ⟨listed, also⟩ := (Labels.sharedPair?_analyze instancing).mp shared
  have counted := InstanceIndex.count_of_mem listed
  cases Node.draws_unique drawn also
  rw [drawings, InstanceIndex.scanned, List.countP_map] at counted
  have one : pair.count = 1 := counted.trans single
  refine (InstanceIndex.mem_analyze.mp listed).2.resolve_right fun several => ?_
  rw [one] at several
  exact absurd several (Nat.lt_irrefl 1)

/-- There is an entry if and only if some element is an instance. -/
theorem used_iff
    (linked : graph.Linked)
    (instancing : options.instancing = true)
    (body : BodyOf graph options kept place headings)
    (groups :
      ∀ id ∈ visible graph, kept id = false → (graph.node id).kind.isGroup = true) :
    (∃ heading ∈ headings, ∃ name, heading.tag = instanceTag name) ↔
      (InstanceIndex.analyze graph options).isEmpty = false := by
  rw [InstanceIndex.isEmpty, List.isEmpty_eq_false_iff_exists_mem]
  constructor
  · rintro ⟨heading, written, name, tagged⟩
    obtain ⟨⟨pair, ⟨listed, _⟩, _⟩, _⟩ := entry_of_instance instancing body written tagged
    exact ⟨pair, listed⟩
  · rintro ⟨pair, listed⟩
    have positive :
        0 < headings.countP fun heading => heading.tag == instanceTag pair.name := by
      rw [count_instances linked instancing body groups listed]
      exact (InstanceIndex.tallied_found graph).used pair (InstanceIndex.mem_analyze.mp listed).1
    obtain ⟨heading, written, tagged⟩ := List.countP_pos_iff.mp positive
    exact ⟨heading, written, pair.name, eq_of_beq tagged⟩

/-- Instances are defined if and only if some element is drawn through one. -/
theorem hasInstances_iff
    {fileName : String}
    (linked : graph.Linked)
    {elements : List Element}
    (body : BodyOf graph options kept place (headingsOf elements))
    (groups :
      ∀ id ∈ visible graph, kept id = false → (graph.node id).kind.isGroup = true) :
    (sourceOf fileName graph options elements).hasInstances = true ↔
      ∃ heading ∈ headingsOf elements, ∃ name, heading.tag = instanceTag name := by
  have defined :
      (sourceOf fileName graph options elements).hasInstances =
        (options.instancing && !(InstanceIndex.analyze graph options).isEmpty) :=
    rfl
  rw [defined]
  cases instancing : options.instancing with
  | true =>
      rw [used_iff linked instancing body groups, Bool.true_and, Bool.not_eq_true']
  | false =>
      refine iff_of_false Bool.false_ne_true fun ⟨heading, listed, name, tagged⟩ => ?_
      obtain ⟨id, own⟩ := exists_of_forall₂ body listed
      obtain ⟨pair, shared, _⟩ := (tag_eq_instanceTag own).mp tagged
      simp [Labels.sharedPair?, Labels.ofGraph, instancing] at shared

end Matching

end SceneMarkup.Component
