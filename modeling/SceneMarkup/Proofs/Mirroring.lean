import Mathlib.Data.List.Nodup
import SceneMarkup.Proofs.BlueprintPlacing
import SceneMarkup.Proofs.Descent
import SceneMarkup.Proofs.MergedDrawings

namespace SceneMarkup.Loading

open Scene (SceneGraph NodeId NodeKind Clip)
open Blueprint (placesFrom sizeOfAll stands standsOfAll)

/-!
# A loaded graph mirrors the nodes of its scene

Every node that the scene reaches has one stand-in.  Its children are first what
the node carries, in objects that stand for nothing, and then the stand-ins of the
node's own children.  The blueprints of a scene have this shape, and so has the
arena in which they are laid.
-/

section Shapes

/-- Whether objects of a class draw a primitive. -/
def draws : NodeKind → Bool
  | .mesh => true
  | .skinnedMesh => true
  | .instancedMesh _ => true
  | .line _ => true
  | .points => true
  | _ => false

/-- What draws a primitive, a camera or a light. -/
def IsThing (node : Scene.Node) : Prop :=
  (draws node.kind = true ∧ node.geometry.isSome = true) ∨
    (∃ camera, node.kind = .camera camera) ∨
    ∃ light, node.kind = .light light

/-- What draws, sees or shines is no bone. -/
theorem IsThing.kind_ne_bone
    {node : Scene.Node}
    (thing : IsThing node) :
    node.kind ≠ .bone := by
  intro bone
  simp [IsThing, bone, draws] at thing

/-- A thing, or a group of things; neither stands for a node. -/
def IsAttached (blueprint : Blueprint) : Prop :=
  (∃ node, IsThing node ∧ blueprint = .leaf node) ∨
    ∃ nodes : List Scene.Node,
      (∀ node ∈ nodes, IsThing node) ∧ blueprint = .object {} none (nodes.map .leaf)

/-- A single thing is attached. -/
theorem isAttached_leaf
    {node : Scene.Node}
    (thing : IsThing node) :
    IsAttached (.leaf node) :=
  .inl ⟨node, thing, rfl⟩

/-- Any number of things is attached, alone or as a group. -/
theorem isAttached_bundle
    {nodes : List Scene.Node}
    (things : ∀ node ∈ nodes, IsThing node) :
    IsAttached (.bundle (nodes.map .leaf)) := by
  rcases nodes with _ | ⟨node, _ | ⟨next, rest⟩⟩
  · exact .inr ⟨[], things, rfl⟩
  · exact isAttached_leaf (things node List.mem_cons_self)
  · exact .inr ⟨node :: next :: rest, things, rfl⟩

variable {source : Source} {node : Gltf.Node}

/-- An object that draws still draws when a node uses it. -/
theorem draws_usedKind
    {kind : NodeKind}
    (drawn : draws kind = true) :
    draws (usedKind source node kind) = true := by
  unfold usedKind
  split
  · rfl
  · rfl
  · exact drawn

/-- A primitive stays a thing however a node uses it. -/
theorem Portrays.isThing
    {extras : Json.Members}
    {primitive : Gltf.Primitive}
    {object renamed : Scene.Node}
    {mesh : Gltf.Mesh}
    (portrays : Portrays extras primitive object)
    (same : Renamed (usedObject source node mesh object) renamed) :
    IsThing renamed := by
  obtain ⟨name, geometry, material, rfl⟩ := portrays
  obtain ⟨other, rfl⟩ := same
  have drawn : draws (drawnKind (primitive.mode.getD .triangles)) = true := by
    cases primitive.mode.getD .triangles <;> rfl
  exact .inl ⟨draws_usedKind drawn, rfl⟩

/-- What stands for a mesh is attached. -/
theorem DepictsMesh.isAttached
    {chosen : Nat × Gltf.Mesh}
    {blueprint : Blueprint}
    (depicts : DepictsMesh source node chosen blueprint) :
    IsAttached blueprint := by
  obtain ⟨built, objects, portrayed, renamed, rfl⟩ := depicts
  refine isAttached_bundle fun object member => ?_
  obtain ⟨_, listed, same⟩ := partner_of_forall₂ (List.Forall₂.flip renamed) member
  obtain ⟨original, mine, rfl⟩ := List.mem_map.mp listed
  obtain ⟨primitive, _, portrays⟩ := partner_of_forall₂ (List.Forall₂.flip portrayed) mine
  exact Portrays.isThing portrays same

/-- All that a node carries is attached. -/
theorem DepictsCarried.isAttached
    {objects : List Blueprint}
    (depicts : DepictsCarried source node objects) :
    ∀ one ∈ objects, IsAttached one := by
  obtain ⟨meshes, cameras, lights, drawn, placed, lit, rfl⟩ := depicts
  intro one member
  rw [List.mem_append, List.mem_append] at member
  rcases member with (mesh | camera) | light
  · obtain ⟨chosen, _, depicted⟩ := partner_of_forall₂ (List.Forall₂.flip drawn) mesh
    exact DepictsMesh.isAttached depicted
  · obtain ⟨chosen, _, name, rfl⟩ := partner_of_forall₂ (List.Forall₂.flip placed) camera
    exact isAttached_leaf (.inr (.inl ⟨_, rfl⟩))
  · obtain ⟨chosen, _, name, rfl⟩ := partner_of_forall₂ (List.Forall₂.flip lit) light
    exact isAttached_leaf (.inr (.inr ⟨_, rfl⟩))

/-- An object that will stand for a node, and below it what the node carries. -/
theorem exists_of_holder
    (joint : Bool)
    {objects : List Blueprint}
    (attached : ∀ one ∈ objects, IsAttached one) :
    ∃ object below,
      holder joint objects = .object object none below ∧
        (object.kind = .bone ↔ joint = true) ∧
        ∀ one ∈ below, IsAttached one := by
  cases joint with
  | true => exact ⟨_, objects, rfl, by simp, attached⟩
  | false =>
    rcases objects with _ | ⟨first, _ | ⟨second, rest⟩⟩
    · exact ⟨_, [], rfl, by simp, attached⟩
    · rcases attached first List.mem_cons_self with ⟨node, thing, rfl⟩ | ⟨nodes, things, rfl⟩
      · exact ⟨node, [], rfl, by simp [thing.kind_ne_bone], by simp⟩
      · refine ⟨{}, nodes.map .leaf, rfl, by simp, fun one member => ?_⟩
        obtain ⟨node, listed, rfl⟩ := List.mem_map.mp member
        exact isAttached_leaf (things node listed)
    · exact ⟨{}, first :: second :: rest, rfl, by simp, attached⟩

/-- What stands for a node is an object of the right class; below it is first what the node
carries and then what stands for its children. -/
theorem DepictsOver.shape
    {index : Nat}
    {children : List Blueprint}
    {blueprint : Blueprint}
    (depicts : DepictsOver source index children blueprint) :
    ∃ object attached,
      blueprint = .object object (some index) (attached ++ children) ∧
        (object.kind = .bone ↔ isJoint source index = true) ∧
        ∀ one ∈ attached, IsAttached one := by
  obtain ⟨name, objects, carried, rfl⟩ := depicts
  obtain ⟨object, attached, held, bone, all⟩ :=
    exists_of_holder (isJoint source index) carried.isAttached
  rw [held]
  exact ⟨_, attached, rfl, bone, all⟩

/-- What stands for a node is an object that says so. -/
theorem Depicts.exists_object
    {levels index : Nat}
    {blueprint : Blueprint}
    (depicts : Depicts source levels index blueprint) :
    ∃ object children, blueprint = .object object (some index) children := by
  cases levels with
  | zero =>
    obtain ⟨object, attached, rfl, _⟩ := DepictsOver.shape depicts
    exact ⟨object, _, rfl⟩
  | succ fewer =>
    obtain ⟨children, _, top⟩ := depicts
    obtain ⟨object, attached, rfl, _⟩ := top.shape
    exact ⟨object, _, rfl⟩

end Shapes

section Stands

theorem standsOfAll_leaves (nodes : List Scene.Node) :
    standsOfAll (nodes.map .leaf) = [] := by
  induction nodes with
  | nil => rfl
  | cons node rest ih =>
    rw [List.map_cons, standsOfAll, ih]
    rfl

/-- What is attached stands for no node. -/
theorem standsOfAll_of_attached
    {blueprints : List Blueprint}
    (attached : ∀ one ∈ blueprints, IsAttached one) :
    standsOfAll blueprints = [] := by
  induction blueprints with
  | nil => rfl
  | cons first rest ih =>
    have later := ih fun one member => attached one (List.mem_cons_of_mem first member)
    rw [standsOfAll, later, List.append_nil]
    rcases attached first List.mem_cons_self with ⟨node, _, rfl⟩ | ⟨nodes, _, rfl⟩
    · rfl
    · exact standsOfAll_leaves nodes

variable {source : Source}

/-- What stands for a node stands for it and for what its children stand for. -/
theorem DepictsOver.stands_eq
    {index : Nat}
    {children : List Blueprint}
    {blueprint : Blueprint}
    (depicts : DepictsOver source index children blueprint) :
    blueprint.stands = index :: standsOfAll children := by
  obtain ⟨object, attached, rfl, _, all⟩ := depicts.shape
  rw [stands, Blueprint.standsOfAll_append, standsOfAll_of_attached all]
  rfl

/-- Blueprints stand for the nodes that walks from their own nodes come by. -/
theorem standsOfAll_of_forall₂
    {walk : Nat → List Nat}
    {indices : List Nat}
    {blueprints : List Blueprint}
    (same : List.Forall₂ (fun index blueprint => blueprint.stands = walk index) indices blueprints) :
    standsOfAll blueprints = indices.flatMap walk := by
  induction same with
  | nil => rfl
  | cons here _ ih => rw [standsOfAll, List.flatMap_cons, here, ih]

/-- What stands for a node stands for the nodes that a walk from it comes by, in that order. -/
theorem Depicts.stands_eq
    {levels index : Nat}
    {blueprint : Blueprint}
    (depicts : Depicts source levels index blueprint) :
    blueprint.stands = visits source levels index := by
  induction levels generalizing index blueprint with
  | zero => exact DepictsOver.stands_eq depicts
  | succ fewer ih =>
    obtain ⟨children, below, top⟩ := depicts
    rw [top.stands_eq, standsOfAll_of_forall₂ (below.imp fun _ _ depicted => ih depicted)]
    rfl

end Stands

section Mirrors

/-- An object that stands for no node: a thing, or a group of such objects. -/
inductive Attachment (graph : SceneGraph) (standIn : Nat → Option NodeId) : NodeId → Prop
  | thing
      {id : NodeId}
      (idle : ∀ index, standIn index ≠ some id)
      (thing : IsThing (graph.node id))
      (alone : graph.children id = []) :
      Attachment graph standIn id
  | group
      {id : NodeId}
      (idle : ∀ index, standIn index ≠ some id)
      (group : (graph.node id).kind = .group)
      (below : ∀ child ∈ graph.children id, Attachment graph standIn child) :
      Attachment graph standIn id

/-- An object stands for a node as it should. -/
structure Reflects
    (source : Source)
    (graph : SceneGraph)
    (standIn : Nat → Option NodeId)
    (index : Nat)
    (id : NodeId) :
    Prop where
  bone : (graph.node id).kind = .bone ↔ isJoint source index = true
  /-- Attachments come first, then the stand-ins of the node's children. -/
  children :
    ∃ attached below,
      graph.children id = attached ++ below ∧
        (∀ one ∈ attached, Attachment graph standIn one) ∧
        below.map some = (nodeAt source index).children.map standIn

/-- A graph has one stand-in for every node that a scene reaches, where the node should be. -/
structure Mirrors
    (source : Source)
    (scene : Gltf.Scene)
    (graph : SceneGraph)
    (standIn : Nat → Option NodeId) :
    Prop where
  reached : ∀ index, (standIn index).isSome = true ↔ Reached source scene index
  inside : ∀ index id, standIn index = some id → id ≠ SceneGraph.root ∧ id < graph.size
  apart : ∀ first second id, standIn first = some id → standIn second = some id → first = second
  roots : (graph.children SceneGraph.root).map some = scene.nodes.map standIn
  reflects : ∀ index id, standIn index = some id → Reflects source graph standIn index id
  others :
    ∀ id < graph.size, id ≠ SceneGraph.root →
      (∃ index, standIn index = some id) ∨ Attachment graph standIn id
  clips :
    graph.clips.map (·.targets) =
      source.document.animations.toList.map fun animation =>
        (animation.channels.filterMap fun channel => standIn channel.node).eraseDups

/-- What is attached stands for no node. -/
theorem Attachment.idle
    {graph : SceneGraph}
    {standIn : Nat → Option NodeId}
    {id : NodeId}
    (attachment : Attachment graph standIn id)
    (index : Nat) :
    standIn index ≠ some id := by
  cases attachment with
  | thing idle => exact idle index
  | group idle => exact idle index

end Mirrors

section Arena

variable {source : Source} {assembled : Assembled}

/-- The latest stand-in of a node is the only one where no node has two. -/
theorem standIn?_eq_some
    (keyed : (assembled.standIns.map (·.1)).Nodup)
    {index : Nat}
    {id : NodeId} :
    assembled.standIn? index = some id ↔ (index, id) ∈ assembled.standIns := by
  rw [Assembled.standIn?, Option.map_eq_some_iff]
  constructor
  · rintro ⟨entry, found, rfl⟩
    have named : entry.1 = index := by simpa using List.find?_some found
    rw [← named]
    exact List.mem_of_find?_eq_some found
  · intro listed
    have known : (assembled.standIns.find? fun entry => entry.1 == index).isSome = true :=
      List.find?_isSome.mpr ⟨(index, id), listed, by simp⟩
    obtain ⟨entry, found⟩ := Option.isSome_iff_exists.mp known
    have named : entry.1 = index := by simpa using List.find?_some found
    have same := List.inj_on_of_nodup_map keyed (List.mem_of_find?_eq_some found) listed named
    exact ⟨entry, found, by rw [same]⟩

/-- Siblings that are laid one after another are found where they begin. -/
theorem map_placesFrom
    (keyed : (assembled.standIns.map (·.1)).Nodup)
    {levels : Nat}
    {indices : List Nat}
    {blueprints : List Blueprint}
    (depicted : List.Forall₂ (Depicts source levels) indices blueprints)
    {holder start : Nat}
    (laid : AllLaidAt assembled holder start blueprints) :
    (placesFrom start blueprints).map some = indices.map assembled.standIn? := by
  induction depicted generalizing start with
  | nil => rfl
  | cons here _ ih =>
    obtain ⟨first, others⟩ := laid
    rw [placesFrom, List.map_cons, List.map_cons, ih others]
    obtain ⟨object, children, rfl⟩ := here.exists_object
    have found := (standIn?_eq_some keyed).mpr ((first.2.1 _).mpr rfl)
    rw [found]

/-- What is laid at a place among others that are laid one after another. -/
theorem exists_laid
    {holder start place : Nat}
    {blueprints : List Blueprint}
    (laid : AllLaidAt assembled holder start blueprints)
    (least : start ≤ place)
    (most : place < start + sizeOfAll blueprints) :
    ∃ one ∈ blueprints, ∃ id,
      LaidAt assembled holder id one ∧ id ≤ place ∧ place < id + one.size := by
  induction blueprints generalizing start with
  | nil =>
    rw [Blueprint.sizeOfAll_nil] at most
    omega
  | cons first rest ih =>
    rw [Blueprint.sizeOfAll_cons] at most
    obtain ⟨here, others⟩ := laid
    by_cases within : place < start + first.size
    · exact ⟨first, List.mem_cons_self, start, here, least, within⟩
    · obtain ⟨one, member, found⟩ := ih others (by omega) (by omega)
      exact ⟨one, List.mem_cons_of_mem first member, found⟩

/-- Blueprints that are laid out from a place stand between it and its end. -/
theorem bounds_of_placesFrom
    {start place : Nat}
    {blueprints : List Blueprint}
    (member : place ∈ placesFrom start blueprints) :
    start ≤ place ∧ place < start + sizeOfAll blueprints := by
  induction blueprints generalizing start with
  | nil => cases member
  | cons first rest ih =>
    have positive : 0 < first.size := by
      cases first
      rw [Blueprint.size_object]
      exact Nat.succ_pos _
    rw [Blueprint.sizeOfAll_cons]
    rcases List.mem_cons.mp member with rfl | later
    · omega
    · have bounds := ih later
      omega

/-- A thing that has been laid out is attached where it stands. -/
theorem attachment_of_leaf
    (keyed : (assembled.standIns.map (·.1)).Nodup)
    {node : Scene.Node}
    (thing : IsThing node)
    {holder id : Nat}
    (laid : LaidAt assembled holder id (.leaf node)) :
    Attachment assembled.graph assembled.standIn? id := by
  obtain ⟨here, role, -⟩ := laid
  refine .thing (fun index found => ?_) ?_ ?_
  · cases (role index).mp ((standIn?_eq_some keyed).mp found)
  · rw [here]
    exact thing
  · rw [SceneGraph.children, here]
    rfl

/-- Everything in the row of an attached blueprint is attached. -/
theorem attachment_of_laid
    (keyed : (assembled.standIns.map (·.1)).Nodup)
    {blueprint : Blueprint}
    (attached : IsAttached blueprint)
    {holder id : Nat}
    (laid : LaidAt assembled holder id blueprint)
    {place : Nat}
    (least : id ≤ place)
    (most : place < id + blueprint.size) :
    Attachment assembled.graph assembled.standIn? place := by
  have single {node : Scene.Node} {place id : Nat} (least : id ≤ place)
      (most : place < id + (Blueprint.leaf node).size) : place = id := by
    rw [Blueprint.leaf, Blueprint.size_object, Blueprint.sizeOfAll_nil] at most
    omega
  rcases attached with ⟨node, thing, rfl⟩ | ⟨nodes, things, rfl⟩
  · obtain rfl := single least most
    exact attachment_of_leaf keyed thing laid
  · obtain ⟨here, role, below⟩ := laid
    have inner :
        ∀ lower : Nat, id + 1 ≤ lower → lower < id + 1 + sizeOfAll (nodes.map .leaf) →
          Attachment assembled.graph assembled.standIn? lower := by
      intro lower least most
      obtain ⟨one, member, start, laid, first, last⟩ := exists_laid below least most
      obtain ⟨node, listed, rfl⟩ := List.mem_map.mp member
      obtain rfl := single first last
      exact attachment_of_leaf keyed (things node listed) laid
    rw [Blueprint.size_object] at most
    rcases Nat.eq_or_lt_of_le least with rfl | later
    · refine .group (fun index found => ?_) ?_ fun child member => ?_
      · cases (role index).mp ((standIn?_eq_some keyed).mp found)
      · rw [here]
      · rw [SceneGraph.children, here] at member
        obtain ⟨first, last⟩ := bounds_of_placesFrom member
        exact inner child first last
    · exact inner place later (by omega)

/-- What is laid for a node stands for it and reflects it. -/
theorem reflects_of_over
    (keyed : (assembled.standIns.map (·.1)).Nodup)
    {levels index : Nat}
    {children : List Blueprint}
    {blueprint : Blueprint}
    (top : DepictsOver source index children blueprint)
    (depicted : List.Forall₂ (Depicts source levels) (nodeAt source index).children children)
    {holder id : Nat}
    (laid : LaidAt assembled holder id blueprint) :
    (∀ other, assembled.standIn? other = some id ↔ index = other) ∧
      Reflects source assembled.graph assembled.standIn? index id := by
  obtain ⟨object, attached, rfl, bone, all⟩ := top.shape
  obtain ⟨here, role, below⟩ := laid
  rw [allLaidAt_append] at below
  refine ⟨fun other => ?_, ?_, ?_⟩
  · rw [standIn?_eq_some keyed, role, Option.some.injEq]
  · rw [here]
    exact bone
  · refine ⟨placesFrom (id + 1) attached, placesFrom (id + 1 + sizeOfAll attached) children,
      ?_, ?_, map_placesFrom keyed depicted below.2⟩
    · rw [SceneGraph.children, here, Blueprint.placesFrom_append]
    · intro one member
      obtain ⟨first, last⟩ := bounds_of_placesFrom member
      obtain ⟨blueprint, listed, start, laid, least, most⟩ := exists_laid below.1 first last
      exact attachment_of_laid keyed (all blueprint listed) laid least most

/-- An object reflects a node or is attached to one. -/
def Accounted (source : Source) (assembled : Assembled) (place : NodeId) : Prop :=
  (∃ index, (∀ other, assembled.standIn? other = some place ↔ index = other) ∧
    Reflects source assembled.graph assembled.standIn? index place) ∨
    Attachment assembled.graph assembled.standIn? place

/-- All objects laid out for a node are accounted for if those of its children are. -/
theorem accounted_of_over
    (keyed : (assembled.standIns.map (·.1)).Nodup)
    {levels index : Nat}
    {children : List Blueprint}
    {blueprint : Blueprint}
    (top : DepictsOver source index children blueprint)
    (depicted : List.Forall₂ (Depicts source levels) (nodeAt source index).children children)
    {holder id : Nat}
    (laid : LaidAt assembled holder id blueprint)
    (inner :
      ∀ one ∈ children, ∀ start : Nat, LaidAt assembled id start one →
        ∀ lower : Nat, start ≤ lower → lower < start + one.size →
          Accounted source assembled lower)
    {place : Nat}
    (least : id ≤ place)
    (most : place < id + blueprint.size) :
    Accounted source assembled place := by
  rcases Nat.eq_or_lt_of_le least with rfl | later
  · exact .inl ⟨index, reflects_of_over keyed top depicted laid⟩
  · obtain ⟨object, attached, rfl, _, all⟩ := top.shape
    rw [Blueprint.size_object] at most
    obtain ⟨one, member, start, found, first, last⟩ :=
      exists_laid laid.2.2 later (by omega)
    rcases List.mem_append.mp member with carried | child
    · exact .inr (attachment_of_laid keyed (all one carried) found first last)
    · exact inner one child start found place first last

/-- In the row of what depicts a node every object reflects a node or is attached to one. -/
theorem Depicts.accounted
    (keyed : (assembled.standIns.map (·.1)).Nodup)
    {levels index : Nat}
    {blueprint : Blueprint}
    (depicts : Depicts source levels index blueprint)
    (within : Within source levels index)
    {holder id : Nat}
    (laid : LaidAt assembled holder id blueprint)
    {place : Nat}
    (least : id ≤ place)
    (most : place < id + blueprint.size) :
    Accounted source assembled place := by
  induction levels generalizing index blueprint holder id place with
  | zero =>
    have none : (nodeAt source index).children = [] := within
    have depicted : List.Forall₂ (Depicts source 0) (nodeAt source index).children [] := by
      rw [none]
      exact .nil
    exact accounted_of_over keyed depicts depicted laid (by simp) least most
  | succ fewer ih =>
    obtain ⟨children, below, top⟩ := depicts
    refine accounted_of_over keyed top below laid ?_ least most
    intro one member start found lower first last
    obtain ⟨child, listed, depicted⟩ := partner_of_forall₂ (List.Forall₂.flip below) member
    exact ih depicted (within child listed) found first last

end Arena

section Clips

/-- Driving nodes adds to the targets of a clip those that are new, each once. -/
theorem targets_foldl_drive
    (targets : List NodeId)
    (clip : Clip) :
    (targets.foldl Clip.drive clip).targets =
      clip.targets ++ (targets.filter fun target => !clip.targets.contains target).eraseDups := by
  induction targets generalizing clip with
  | nil => simp
  | cons target rest ih =>
    rw [List.foldl_cons, ih]
    by_cases driven : target ∈ clip.targets
    · simp [Clip.drive, driven]
    · have fresh : clip.targets.contains target = false := by simp [driven]
      have later :
          (rest.filter fun other => !(clip.targets ++ [target]).contains other) =
            (rest.filter fun other => !clip.targets.contains other).filter fun other =>
              !other == target := by
        rw [List.filter_filter]
        refine List.filter_congr fun other _ => ?_
        by_cases listed : other ∈ clip.targets <;> by_cases same : other = target <;>
          simp [listed, same]
      rw [Clip.drive, fresh, if_neg Bool.false_ne_true, later, List.filter_cons_of_pos (by simp [driven]),
        List.eraseDups_cons, List.append_assoc, List.singleton_append]

/-- A clip drives the stand-ins of its channels, each once and in the order first seen. -/
theorem targets_clipOf
    (assembled : Assembled)
    (index : Nat)
    (animation : Gltf.Animation) :
    (clipOf assembled index animation).targets =
      (animation.channels.filterMap fun channel =>
        assembled.standIn? channel.node).eraseDups := by
  rw [clipOf, targets_foldl_drive]
  simp

end Clips

section Loaded

/-- The arena in which the blueprints of a scene are laid. -/
def assembledOf (source : Source) (scene : Gltf.Scene) : Assembled :=
  let made := ((sceneBlueprints source scene).run {}).1
  let bare := (SceneGraph.ofRoot made.1).modify SceneGraph.root fun root =>
    { root with userData := extrasMembers scene.extras }
  Assembled.placeAll ⟨bare, []⟩ SceneGraph.root made.2

/-- The stand-in of a node. -/
def standInOf (source : Source) (scene : Gltf.Scene) (index : Nat) : Option NodeId :=
  (assembledOf source scene).standIn? index

/-- The arena after the clips and the tables were added. -/
def finishedOf (source : Source) (scene : Gltf.Scene) : Assembled :=
  ⟨graphOf source scene, (assembledOf source scene).standIns⟩

theorem upheld_true (source : Source) : Upheld source fun _ => True where
  name _ _ _ := trivial
  geometry _ _ _ := trivial
  material _ _ _ := trivial
  meshes _ _ _ := trivial
  uses _ _ _ := trivial

/-- The graph of a scene is laid out as blueprints say that depict the nodes of the scene. -/
structure LaidOut (source : Source) (scene : Gltf.Scene) (blueprints : List Blueprint) : Prop where
  depicted : List.Forall₂ (Depicts source source.document.nodes.size) scene.nodes blueprints
  laid : AllLaidAt (finishedOf source scene) SceneGraph.root 1 blueprints
  size : (graphOf source scene).size = 1 + sizeOfAll blueprints
  roots : (graphOf source scene).children SceneGraph.root = placesFrom 1 blueprints
  housed : Housed (finishedOf source scene)
  rootless : ∀ index, (index, SceneGraph.root) ∉ (finishedOf source scene).standIns
  stands : (finishedOf source scene).standIns.map (·.1) = (standsOfAll blueprints).reverse

/-- Every scene is laid out by blueprints that depict its nodes. -/
theorem exists_laidOut
    (source : Source)
    (scene : Gltf.Scene) :
    ∃ blueprints, LaidOut source scene blueprints := by
  let made := ((sceneBlueprints source scene).run {}).1
  let bare := (SceneGraph.ofRoot made.1).modify SceneGraph.root fun root =>
    { root with userData := extrasMembers scene.extras }
  have rooted : SceneGraph.root < bare.size := Nat.one_pos
  have housed : Housed ⟨bare, []⟩ := fun entry member => by cases member
  obtain ⟨appended, laid⟩ := Assembled.appended_placeAll ⟨bare, []⟩ housed rooted made.2
  have depicted :=
    ((upheld_true source).leads_sceneBlueprints scene {} (stocked_empty trivial)).2
  refine ⟨made.2, depicted, ?_, appended.size, ?_, appended.housed, ?_, ?_⟩
  · exact AllLaidAt.kept laid fun place _ _ => ⟨rfl, fun _ => Iff.rfl⟩
  · exact congrArg (·.children) appended.hung
  · intro index listed
    cases (appended.role index).mp listed
  · rw [← List.append_nil (standsOfAll _).reverse]
    exact appended.stands

variable {source : Source} {scene : Gltf.Scene} {blueprints : List Blueprint}

/-- The blueprints stand for the nodes that a walk over the scene comes by. -/
theorem LaidOut.standsOfAll_eq
    (out : LaidOut source scene blueprints) :
    standsOfAll blueprints =
      scene.nodes.flatMap (visits source source.document.nodes.size) :=
  standsOfAll_of_forall₂ (out.depicted.imp fun _ _ depicts => depicts.stands_eq)

/-- Where each node is reached once, no two objects stand for one node. -/
theorem LaidOut.keyed
    (out : LaidOut source scene blueprints)
    (once : ReachedOnce source scene) :
    ((finishedOf source scene).standIns.map (·.1)).Nodup := by
  rw [out.stands, out.standsOfAll_eq]
  exact List.nodup_reverse.mpr (nodup_visits once _)

/-- Exactly the nodes that are reached have an object. -/
theorem LaidOut.isSome_standInOf
    (out : LaidOut source scene blueprints)
    (once : ReachedOnce source scene)
    (index : Nat) :
    (standInOf source scene index).isSome = true ↔ Reached source scene index := by
  have listed :
      (standInOf source scene index).isSome = true ↔
        index ∈ (finishedOf source scene).standIns.map (·.1) := by
    rw [Option.isSome_iff_exists, List.mem_map]
    constructor
    · rintro ⟨id, found⟩
      exact ⟨(index, id), (standIn?_eq_some (out.keyed once)).mp found, rfl⟩
    · rintro ⟨⟨_, id⟩, member, rfl⟩
      exact ⟨id, (standIn?_eq_some (out.keyed once)).mpr member⟩
  rw [listed, out.stands, out.standsOfAll_eq, List.mem_reverse]
  constructor
  · intro visited
    obtain ⟨place, address, followed⟩ := exists_follow?_of_visits visited
    exact ⟨place :: address, followed⟩
  · rintro ⟨address, followed⟩
    exact mem_visits_of_follow? (within_of_once once) followed

/-- Every object but the root is accounted for. -/
theorem LaidOut.accounted
    (out : LaidOut source scene blueprints)
    (once : ReachedOnce source scene)
    {id : Nat}
    (inside : id < (graphOf source scene).size)
    (differs : id ≠ SceneGraph.root) :
    Accounted source (finishedOf source scene) id := by
  rw [out.size] at inside
  obtain ⟨one, member, start, laid, least, most⟩ :=
    exists_laid out.laid (Nat.pos_of_ne_zero differs) inside
  obtain ⟨index, listed, depicts⟩ :=
    partner_of_forall₂ (List.Forall₂.flip out.depicted) member
  exact Depicts.accounted (out.keyed once) depicts (within_of_once once index listed) laid least
    most

/-- A clip drives the objects that stand for the nodes of its channels, each once. -/
theorem targets_clips :
    (graphOf source scene).clips.map (·.targets) =
      source.document.animations.toList.map fun animation =>
        (animation.channels.filterMap fun channel =>
          standInOf source scene channel.node).eraseDups := by
  have clips :
      (graphOf source scene).clips =
        (numberedAnimations source).map fun numbered =>
          clipOf (assembledOf source scene) numbered.1 numbered.2 :=
    rfl
  rw [clips, numberedAnimations, List.map_map, List.map_map]
  conv_rhs => rw [← List.zipIdx_map_fst 0 source.document.animations.toList, List.map_map]
  exact List.map_congr_left fun numbered _ => targets_clipOf _ _ _

/-- The loaded graph mirrors the nodes of its scene. -/
theorem graphOf_mirrors_nodes
    (once : ReachedOnce source scene) :
    Mirrors source scene (graphOf source scene) (standInOf source scene) := by
  obtain ⟨blueprints, out⟩ := exists_laidOut source scene
  have keyed := out.keyed once
  have inside :
      ∀ index id, standInOf source scene index = some id →
        id ≠ SceneGraph.root ∧ id < (graphOf source scene).size := by
    intro index id found
    have member := (standIn?_eq_some keyed).mp found
    refine ⟨?_, out.housed _ member⟩
    rintro rfl
    exact out.rootless index member
  have reflects :
      ∀ index id, standInOf source scene index = some id →
        (∀ other, standInOf source scene other = some id ↔ index = other) ∧
          Reflects source (graphOf source scene) (standInOf source scene) index id := by
    intro index id found
    obtain ⟨differs, within⟩ := inside index id found
    rcases out.accounted once within differs with ⟨own, only, reflected⟩ | attachment
    · obtain rfl := (only index).mp found
      exact ⟨only, reflected⟩
    · exact absurd found (attachment.idle index)
  constructor
  case reached => exact out.isSome_standInOf once
  case inside => exact inside
  case apart =>
    intro first second id foundFirst foundSecond
    exact ((reflects first id foundFirst).1 second).mp foundSecond
  case roots =>
    rw [out.roots]
    exact map_placesFrom keyed out.depicted out.laid
  case reflects => exact fun index id found => (reflects index id found).2
  case others =>
    intro id within differs
    rcases out.accounted once within differs with ⟨index, only, _⟩ | attachment
    · exact .inl ⟨index, (only index).mpr rfl⟩
    · exact .inr attachment
  case clips => exact targets_clips

end Loaded

namespace Rig

/-- A joint that carries a mesh of two primitives, above a node with a camera and a node that draws
the same mesh; an empty node below that one, and a node outside of the scene. -/
def document : Gltf.Document :=
  { Sample.document with
    animations :=
      #[{ name := none, channels := [⟨0, 2⟩, ⟨0, 0⟩, ⟨0, 2⟩, ⟨0, 4⟩, ⟨0, 3⟩], samplers := [] }]
    cameras := #[⟨none, none, none, none, .null⟩]
    meshes := #[⟨none, .null, [Sample.twins.1, Sample.twins.2], none⟩]
    nodes :=
      #[{ Gltf.Node.absent with mesh := some 0, children := [1, 2] },
        { Gltf.Node.absent with camera := some 0 },
        { Gltf.Node.absent with mesh := some 0, children := [3] },
        Gltf.Node.absent,
        Gltf.Node.absent]
    skins := #[⟨none, [0], none⟩] }

/-- The document without the bytes of its buffers. -/
def source : Source :=
  ⟨document, none⟩

end Rig

/-- The stand-ins of a rig, and what its clip drives. -/
theorem graphOf_mirrors_nodes_rig :
    ReachedOnce Rig.source Sample.scene ∧
      (List.range 5).map (standInOf Rig.source Sample.scene) =
        [some 1, some 5, some 6, some 9, none] ∧
      (graphOf Rig.source Sample.scene).clips.map (·.targets) = [[6, 1, 9]] ∧
      Mirrors Rig.source Sample.scene (graphOf Rig.source Sample.scene)
        (standInOf Rig.source Sample.scene) := by
  have once : ReachedOnce Rig.source Sample.scene := by decide +kernel
  refine ⟨once, by decide +kernel, by decide +kernel, graphOf_mirrors_nodes once⟩

end SceneMarkup.Loading
