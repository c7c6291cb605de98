import Mathlib.Data.List.Forall2
import SceneMarkup.Proofs.Accesses
import SceneMarkup.Proofs.Instances

namespace SceneMarkup.Scene

namespace Labels

/-- No name is made up for other nodes. -/
theorem lookup_makeUpNames
    {graph : SceneGraph}
    {ids : List NodeId}
    {id : NodeId}
    (other : id ∉ ids)
    (used : List String) :
    (makeUpNames graph used ids).lookup id = none := by
  induction ids generalizing used with
  | nil => rfl
  | cons first rest ih =>
      rw [List.mem_cons, not_or] at other
      rw [makeUpNames, List.lookup_cons, beq_eq_false_iff_ne.mpr other.1]
      exact ih other.2 _

/-- A node with a name, or one that no clip drives, is called what it is called in the scene. -/
theorem name_ofGraph
    {graph : SceneGraph}
    {id : NodeId}
    (kept : (graph.node id).name ≠ "" ∨ id ∉ graph.targets)
    (index : InstanceIndex)
    (options : Options) :
    (ofGraph graph index options).name id = (graph.node id).name := by
  have other : id ∉ graph.unnamedTargets := by
    intro listed
    obtain ⟨_, both⟩ := List.mem_filter.mp listed
    simp only [Bool.and_eq_true, List.contains_eq_mem, decide_eq_true_eq,
      String.isEmpty_iff] at both
    exact kept.elim (fun named => named both.2) fun undriven => undriven both.1
  rw [name, ofGraph, lookup_makeUpNames other]

end Labels

end SceneMarkup.Scene

namespace SceneMarkup.Component

open Scene Markup Pruning

/-!
# Typed modules declare what they use

The blocks of the result type have each key on one line.  An attribute takes the
name of its own node or that of its node's material, and an entry of the instance
index takes the name of a mesh.  The two exceptions are nodes of other classes
that carry what only meshes are declared for, and meshes that are declared under
a name made up for them.
-/

section Keys

/-- The keys of entries as they are written. -/
def writtenKeys (entries : List (String × String)) : List String :=
  entries.map fun entry => Text.propertyKey entry.1

/-- A key is written exactly once. -/
def DeclaredOnce (keys : List String) (key : String) : Prop :=
  keys.count (Text.propertyKey key) = 1

instance (keys : List String) (key : String) :
    Decidable (DeclaredOnce keys key) :=
  inferInstanceAs (Decidable (_ = 1))

/-- Keeping the first of each key drops no key. -/
theorem mem_keys_firstOfEachKey
    {entries : List (String × String)}
    {key : String} :
    key ∈ (firstOfEachKey entries).map (·.1) ↔ key ∈ entries.map (·.1) := by
  induction entries with
  | nil => rfl
  | cons entry rest ih =>
      rw [firstOfEachKey, List.map_cons, List.map_cons, List.mem_cons, List.mem_cons, ← ih]
      by_cases same : key = entry.1
      · simp [same]
      · simp only [same, false_or, List.mem_map, List.mem_filter, bne_iff_ne]
        constructor
        · rintro ⟨later, ⟨listed, _⟩, held⟩
          exact ⟨later, listed, held⟩
        · rintro ⟨later, listed, held⟩
          exact ⟨later, ⟨listed, held ▸ same⟩, held⟩

/-- Keeping the first of each key changes no order. -/
theorem firstOfEachKey_sublist
    (entries : List (String × String)) :
    (firstOfEachKey entries).Sublist entries := by
  induction entries with
  | nil => exact List.Sublist.refl _
  | cons entry rest ih =>
      rw [firstOfEachKey]
      exact (List.filter_sublist.trans ih).cons_cons entry

/-- Keeping the first of each key leaves different keys. -/
theorem nodup_keys_firstOfEachKey
    (entries : List (String × String)) :
    ((firstOfEachKey entries).map (·.1)).Nodup := by
  induction entries with
  | nil => exact List.nodup_nil
  | cons entry rest ih =>
      rw [firstOfEachKey, List.map_cons, List.nodup_cons]
      refine ⟨fun listed => ?_, ih.sublist (List.filter_sublist.map _)⟩
      obtain ⟨later, member, same⟩ := List.mem_map.mp listed
      have differs := (List.mem_filter.mp member).2
      rw [same, bne_self_eq_false] at differs
      cases differs

/-- Of the entries with one key, one line is written. -/
theorem declaredOnce_of_mem
    {entries : List (String × String)}
    {key : String}
    (listed : key ∈ entries.map (·.1)) :
    DeclaredOnce (writtenKeys (firstOfEachKey entries)) key := by
  have lines :
      writtenKeys (firstOfEachKey entries) =
        ((firstOfEachKey entries).map (·.1)).map Text.propertyKey := by
    rw [List.map_map]
    rfl
  rw [DeclaredOnce, lines]
  refine List.count_eq_one_of_mem ?_ ?_
  · exact (nodup_keys_firstOfEachKey entries).map propertyKey_injective
  · exact List.mem_map_of_mem (mem_keys_firstOfEachKey.mpr listed)

end Keys

section Declared

variable {labels : Labels} {id : NodeId}

/-- Meshes and root bones of the tree are declared. -/
theorem declaredOnce_node
    (listed : id ∈ labels.graph.traverse SceneGraph.root)
    (chosen :
      (labels.graph.node id).kind.isMesh = true ∨ isRootBone labels.graph id = true) :
    DeclaredOnce (writtenKeys (declaredNodes labels)) (labels.name id) := by
  refine declaredOnce_of_mem (List.mem_map.mpr ⟨_, List.mem_map_of_mem ?_, rfl⟩)
  rcases chosen with mesh | bone
  · exact List.mem_append_left _ (List.mem_filter.mpr ⟨listed, mesh⟩)
  · exact List.mem_append_right _ (List.mem_filter.mpr ⟨listed, bone⟩)

/-- Named materials of the tree are declared. -/
theorem declaredOnce_material
    {graph : SceneGraph}
    (listed : id ∈ graph.traverse SceneGraph.root)
    {material : MaterialId}
    (used : (graph.node id).material = some material)
    (named : (graph.material material).name.isEmpty = false) :
    DeclaredOnce (writtenKeys (declaredMaterials graph)) (graph.material material).name := by
  refine declaredOnce_of_mem (List.mem_map.mpr ⟨_, List.mem_map_of_mem ?_, rfl⟩)
  refine List.mem_filter.mpr ⟨List.mem_map_of_mem ?_, ?_⟩
  · exact List.mem_filterMap.mpr ⟨id, listed, used⟩
  · rw [named]
    rfl

/-- A bone with no bone above it is a root bone. -/
theorem isRootBone_of_outsideSkeleton
    {graph : SceneGraph}
    (linked : graph.Linked)
    (bone : (graph.node id).kind.isBone = true)
    (outside : outsideSkeleton graph id = true) :
    isRootBone graph id = true := by
  rw [isRootBone, bone, Bool.true_and, Bool.not_eq_true']
  cases above : (graph.node id).parent with
  | none => rfl
  | some parent =>
      have member := linked.mem_of_parent above
      exact (outsideSkeleton_iff linked).mp outside parent (SceneGraph.Reaches.child member)
        (Nat.ne_of_lt (linked.forward member).1)

/-- What is visible in a tree and is a mesh or a bone is declared. -/
theorem declaredOnce_of_visible
    (linked : labels.graph.Linked)
    (seen : id ∈ visible labels.graph)
    (chosen :
      (labels.graph.node id).kind.isMesh = true ∨ (labels.graph.node id).kind.isBone = true) :
    DeclaredOnce (writtenKeys (declaredNodes labels)) (labels.name id) := by
  obtain ⟨listed, outside⟩ := List.mem_filter.mp seen
  refine declaredOnce_node listed (chosen.imp_right fun bone => ?_)
  exact isRootBone_of_outsideSkeleton linked bone outside

end Declared

section Own

variable {labels : Labels} {id : NodeId} {content : String}

/-- The names of both tables are heard. -/
theorem loud_tables :
    ¬ Mute "nodes".toList ∧ ¬ Mute "materials".toList :=
  ⟨fun mute => (mute 'o' (by decide)).1 rfl, fun mute => (mute 'm' (by decide)).2 rfl⟩

/-- An expression of a node takes nothing but the node itself and its material. -/
structure TakesOwn (labels : Labels) (id : NodeId) (content : String) : Prop where
  node :
    ∀ key ∈ accesses "nodes" content,
      key = labels.name id ∧
        ((labels.graph.node id).kind.isBone = true ∨
          (NodeContext.ofLabels labels id).RefersToItself)
  material :
    ∀ key ∈ accesses "materials" content,
      ∃ material, (labels.graph.node id).material = some material ∧
        (labels.graph.material material).name = key ∧ key.isEmpty = false

/-- A constant takes no key. -/
theorem takesOwn_of_constant
    (constant : Constant content.toList) :
    TakesOwn labels id content where
  node := by
    rw [accesses_constant loud_tables.1 constant]
    exact fun _ member => by cases member
  material := by
    rw [accesses_constant loud_tables.2 constant]
    exact fun _ member => by cases member

/-- What a node tells takes its own key or that of a material in use. -/
theorem takesOwn_of_tells
    (told : (NodeContext.ofLabels labels id).Tells (.expression content)) :
    TakesOwn labels id content := by
  have reaches :
      (NodeContext.ofLabels labels id).expression = Scene.nodeExpression (labels.name id) :=
    rfl
  cases told with
  | constant constant => exact takesOwn_of_constant constant
  | property refers listed =>
      rw [reaches]
      constructor <;> rw [accesses_property _ listed]
      · exact fun key member => ⟨List.mem_singleton.mp member, .inr refers⟩
      · exact fun _ member => by cases member
  | arguments refers count =>
      rw [reaches]
      constructor
      · rw [accesses_arguments loud_tables.1]
        intro key member
        refine ⟨?_, .inr refers⟩
        simpa using member
      · rw [accesses_arguments loud_tables.2]
        exact fun _ member => by cases member
  | material used named =>
      constructor <;> rw [accesses_memberAccess isWord_materials]
      · exact fun _ member => by cases member
      · intro key member
        obtain rfl := List.mem_singleton.mp member
        obtain ⟨material, held⟩ := Option.isSome_iff_exists.mp used
        have own : (labels.graph.node id).material = some material := held
        refine ⟨material, own, ?_, named⟩
        simp only [NodeContext.ofLabels, own]

/-- A name that is no text is a JSON string. -/
theorem constant_of_nameValue
    {name : String}
    (value : nameValue name = .expression content) :
    Constant content.toList := by
  unfold nameValue at value
  split at value
  next =>
    cases value
    exact constant_quotedText name
  next => cases value

/-- What the heading of a node takes is its own. -/
theorem takesOwn_of_headingAt
    {transform : Transform}
    {heading : Heading}
    (own : headingAt labels id transform = .ok heading)
    {item : WrittenAttribute}
    (member : item ∈ heading.attributes)
    (value : item.value = .expression content) :
    TakesOwn labels id content := by
  cases heads_of_headingAt own with
  | handle bone =>
      obtain rfl := List.mem_singleton.mp member
      cases value
      constructor <;>
        rw [Labels.nodeExpression, Scene.nodeExpression, accesses_memberAccess isWord_nodes]
      · exact fun key listed => ⟨List.mem_singleton.mp listed, .inl bone⟩
      · exact fun _ listed => by cases listed
  | element _ printed =>
      rcases List.mem_append.mp member with name | written
      · rw [eq_of_mem_nameAttributes name] at value
        exact takesOwn_of_constant (constant_of_nameValue value)
      · obtain ⟨entry, listed, rfl⟩ := List.mem_map.mp written
        have told := tells_attributes printed entry listed
        rw [show entry.value = .expression content from value] at told
        exact takesOwn_of_tells told

/-- What is taken through the node is declared: the node is a mesh or a bone, or it carries nothing
of its own. -/
def Declarable (graph : SceneGraph) (id : NodeId) : Prop :=
  (graph.node id).kind.isMesh = true ∨ (graph.node id).kind.isBone = true ∨
    ((graph.node id).geometry = none ∧ (graph.node id).morphTargets = none ∧
      ∀ material ∈ (graph.node id).material, (graph.material material).name ≠ "")

instance (graph : SceneGraph) (id : NodeId) : Decidable (Declarable graph id) :=
  inferInstanceAs (Decidable (_ ∨ _ ∨ _))

/-- A declarable node that refers to itself is a mesh or a bone. -/
theorem isMesh_or_isBone
    (declarable : Declarable labels.graph id)
    (refers :
      (labels.graph.node id).kind.isBone = true ∨
        (NodeContext.ofLabels labels id).RefersToItself) :
    (labels.graph.node id).kind.isMesh = true ∨ (labels.graph.node id).kind.isBone = true := by
  rcases refers with bone | mesh | geometry | shapes | ⟨used, unnamed⟩
  · exact .inr bone
  · exact .inl mesh
  all_goals
    rcases declarable with mesh | bone | ⟨noGeometry, noShapes, named⟩
    · exact .inl mesh
    · exact .inr bone
  · have held : (labels.graph.node id).geometry.isSome = true := geometry
    rw [noGeometry] at held
    cases held
  · have held : (labels.graph.node id).morphTargets.isSome = true := shapes
    rw [noShapes] at held
    cases held
  · obtain ⟨material, own⟩ := Option.isSome_iff_exists.mp used
    have held : (labels.graph.node id).material = some material := own
    simp only [NodeContext.ofLabels, held] at unnamed
    exact absurd (String.isEmpty_iff.mp unnamed) (named material held)

end Own

section Pruned

variable {labels other : Labels} {id : NodeId}

/-- Everything that the expression takes is among the declared keys once, materials in any case and
nodes if the condition holds. -/
structure Declares
    (nodeKeys materialKeys : List String)
    (declarable : Prop)
    (content : String) :
    Prop where
  materials : ∀ key ∈ accesses "materials" content, DeclaredOnce materialKeys key
  nodes : declarable → ∀ key ∈ accesses "nodes" content, DeclaredOnce nodeKeys key

/-- What a visible node takes is declared from the pruned scene. -/
theorem declares_of_takesOwn
    (redrawn : Labels.Redrawn labels other)
    (linked : other.graph.Linked)
    (seen : id ∈ visible other.graph)
    {content : String}
    (takes : TakesOwn labels id content) :
    Declares (writtenKeys (declaredNodes other)) (writtenKeys (declaredMaterials other.graph))
      (Declarable labels.graph id) content where
  materials := by
    intro key taken
    obtain ⟨material, used, rfl, named⟩ := takes.material key taken
    have look : (other.graph.node id).material = some material :=
      (congrArg (·.material) (redrawn.looks id)).trans used
    have same : other.graph.material material = labels.graph.material material := by
      rw [SceneGraph.material, redrawn.materials, SceneGraph.material]
    rw [← same] at named ⊢
    exact declaredOnce_material (List.mem_filter.mp seen).1 look named
  nodes := by
    intro declarable key taken
    obtain ⟨rfl, refers⟩ := takes.node key taken
    rw [← redrawn.names]
    refine declaredOnce_of_visible linked seen ?_
    rw [redrawn.kind]
    exact isMesh_or_isBone declarable refers

/-- A mesh outside of bones is declared by what was written. -/
theorem Rendered.declaredOnce_mesh
    {fileName : String}
    {graph : SceneGraph}
    {options : Options}
    {text : String}
    {final : State}
    {elements : List Element}
    (rendered : Rendered fileName graph options text final elements)
    (linked : graph.Linked)
    (intact : Intact graph)
    (listed : id ∈ graph.outsideBones SceneGraph.root)
    (mesh : (graph.node id).kind = .mesh) :
    DeclaredOnce (writtenKeys (declaredNodes (sourceOf fileName graph options elements).labels))
      ((Labels.ofGraph graph (InstanceIndex.analyze graph options) options).name id) := by
  rw [outsideBones_root linked, List.mem_filter] at listed
  have present : (convert fileName graph options).graph.isRemoved id = false := by
    cases removed : (convert fileName graph options).graph.isRemoved id with
    | false => rfl
    | true =>
        have group := rendered.group linked intact listed.1 (by rw [removed]; rfl)
        rw [mesh] at group
        cases group
  have seen := rendered.still_visible linked intact listed.1 present
  have redrawn := rendered.redrawn linked
  rw [← redrawn.names]
  refine declaredOnce_of_visible (rendered.linked linked) seen (.inl ?_)
  rw [redrawn.kind]
  exact congrArg NodeKind.isMesh mesh

end Pruned

end SceneMarkup.Component
