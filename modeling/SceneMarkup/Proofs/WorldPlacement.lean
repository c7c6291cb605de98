import Mathlib.Algebra.BigOperators.Group.List.Basic
import SceneMarkup.Proofs.Commit

namespace SceneMarkup.Scene

open Pruning

/-!
# Where a node ends up

A local transform is read as a motion: a shift, three turns and a stretch, one
after the other.  A node stands where the motions of the present nodes on its
path lead, from the root down to the node itself.  Motions need not commute, and
nothing is asked of them but that zeros and ones move nothing and that opposite
angles undo each other.
-/

/-- A reading of transforms as motions. -/
structure Interpretation (M : Type u) [Monoid M] where
  shift : Vector → M
  turnX : Float → M
  turnY : Float → M
  turnZ : Float → M
  stretch : Vector → M
  shift_rest : ∀ v, v.agrees .zero = true → shift v = 1
  turnX_rest : ∀ angle, Float.beq angle 0.0 = true → turnX angle = 1
  turnY_rest : ∀ angle, Float.beq angle 0.0 = true → turnY angle = 1
  turnZ_rest : ∀ angle, Float.beq angle 0.0 = true → turnZ angle = 1
  turnX_back : ∀ angle, turnX angle * turnX (-angle) = 1
  turnY_back : ∀ angle, turnY angle * turnY (-angle) = 1
  turnZ_back : ∀ angle, turnZ angle * turnZ (-angle) = 1
  stretch_rest : ∀ v, v.agrees .one = true → stretch v = 1

section Motions

variable {M : Type u} [Monoid M] (reading : Interpretation M)

namespace Interpretation

/-- The turns about the three axes, one after the other. -/
def turn (angles : Vector) : M :=
  reading.turnX angles.x * reading.turnY angles.y * reading.turnZ angles.z

/-- The motion that a transform stands for. -/
def motion (transform : Transform) : M :=
  reading.shift transform.position * reading.turn transform.rotation
    * reading.stretch transform.scale

/-- Angles that agree with zero turn nothing. -/
theorem turn_rest
    {angles : Vector}
    (rest : angles.agrees .zero = true) :
    reading.turn angles = 1 := by
  simp only [Vector.agrees, Vector.zero, Bool.and_eq_true] at rest
  obtain ⟨⟨restX, restY⟩, restZ⟩ := rest
  rw [turn, reading.turnX_rest _ restX, reading.turnY_rest _ restY, reading.turnZ_rest _ restZ,
    mul_one, mul_one]

/-- A transform that agrees with the default moves nothing. -/
theorem motion_rest
    {transform : Transform}
    (position : transform.position.agrees .zero = true)
    (rotation : transform.rotation.agrees .zero = true)
    (scale : transform.scale.agrees .one = true) :
    reading.motion transform = 1 := by
  rw [motion, reading.shift_rest _ position, reading.turn_rest rotation,
    reading.stretch_rest _ scale, mul_one, mul_one]

end Interpretation

namespace SceneGraph

/-- The nodes from the outermost one above `id` down to `id`. -/
def path (graph : SceneGraph) (id : NodeId) : List NodeId :=
  (id :: graph.ancestors id).reverse

/-- Where `id` would stand with the given transforms: the motions of the present nodes on its path,
one after the other. -/
def placementWith
    (graph : SceneGraph)
    (reading : Interpretation M)
    (place : NodeId → Transform)
    (id : NodeId) :
    M :=
  (((graph.path id).filter fun node => !graph.isRemoved node).map fun node =>
    reading.motion (place node)).prod

/-- Where `id` stands. -/
def placement (graph : SceneGraph) (reading : Interpretation M) (id : NodeId) : M :=
  graph.placementWith reading (fun node => (graph.node node).transform) id

/-- What a node adds to where the nodes below it stand. -/
def share
    (graph : SceneGraph)
    (reading : Interpretation M)
    (place : NodeId → Transform)
    (node : NodeId) :
    M :=
  if !graph.isRemoved node then reading.motion (place node) else 1

variable {graph : SceneGraph}

namespace Linked

/-- The path to the root is the root alone. -/
theorem path_root
    (linked : graph.Linked) :
    graph.path root = [root] := by
  rw [path, ancestors_orphan linked.root_orphan]
  rfl

/-- The path to a child is the path to its parent and then the child. -/
theorem path_child
    (linked : graph.Linked)
    {holder child : NodeId}
    (member : child ∈ graph.children holder) :
    graph.path child = graph.path holder ++ [child] := by
  rw [path, path, linked.ancestors_child member, List.reverse_cons]

/-- The path to a node holds the nodes that reach it. -/
theorem mem_path
    (linked : graph.Linked)
    {upper lower : NodeId} :
    upper ∈ graph.path lower ↔ graph.Reaches upper lower := by
  rw [path, List.mem_reverse, List.mem_cons, linked.mem_ancestors]
  by_cases same : upper = lower
  · simp [same, Reaches.refl]
  · simp [same]

/--
Two ways to count the motions on a path agree if they agree step by step, up to a
motion that is carried along and handed down.
-/
theorem prod_path_carried
    (linked : graph.Linked)
    {early late carried : NodeId → M}
    {bottom : NodeId}
    (reached : graph.Reaches root bottom)
    (first : early root = late root * carried root)
    (step :
      ∀ holder child,
        child ∈ graph.children holder → graph.Reaches root holder → graph.Reaches child bottom →
          carried holder * early child = late child * carried child) :
    ((graph.path bottom).map early).prod =
      ((graph.path bottom).map late).prod * carried bottom := by
  have above :
      ∀ id, graph.Reaches root id → graph.Reaches id bottom →
        ((graph.path id).map early).prod = ((graph.path id).map late).prod * carried id := by
    intro id fromRoot toBottom
    induction fromRoot with
    | refl => simp [linked.path_root, first]
    | @tail holder child fromRoot member ih =>
        have before := ih ((Reaches.child member).trans toBottom)
        have here := step holder child member fromRoot toBottom
        rw [linked.path_child member, List.map_append, List.map_append, List.prod_append,
          List.prod_append, before, List.map_singleton, List.map_singleton, List.prod_singleton,
          List.prod_singleton, mul_assoc, mul_assoc, here]
  exact above bottom reached (Reaches.refl bottom)

/--
Two ways to count the motions on a path agree if they differ between two nodes
only, where one of them has a motion handed down from the outer to the inner node.
-/
theorem prod_path_handed
    (linked : graph.Linked)
    {early late : NodeId → M}
    {outer inner bottom : NodeId}
    (handed : M)
    (reached : graph.Reaches root bottom)
    (reaches : graph.Reaches outer inner)
    (differ : outer ≠ inner)
    (passes : graph.Reaches outer bottom → graph.Reaches inner bottom)
    (atOuter : graph.Reaches outer bottom → early outer = late outer * handed)
    (between :
      ∀ node, graph.Reaches outer node → outer ≠ node → graph.Reaches node inner → node ≠ inner →
        graph.Reaches inner bottom → handed * early node = late node * handed)
    (atInner : graph.Reaches inner bottom → handed * early inner = late inner)
    (elsewhere :
      ∀ node, ¬ (graph.Reaches outer node ∧ graph.Reaches node inner) →
        early node = late node) :
    ((graph.path bottom).map early).prod = ((graph.path bottom).map late).prod := by
  have notUp : ¬ graph.Reaches inner outer :=
    fun up => differ (linked.reaches_antisymm reaches up)
  obtain ⟨carried, within, without⟩ :
      ∃ carried : NodeId → M,
        (∀ node, graph.Reaches outer node → ¬ graph.Reaches inner node → carried node = handed) ∧
        ∀ node, ¬ (graph.Reaches outer node ∧ ¬ graph.Reaches inner node) →
          carried node = 1 := by
    classical
    exact ⟨fun node =>
      if graph.Reaches outer node ∧ ¬ graph.Reaches inner node then handed else 1,
      fun _ fromOuter notInner => if_pos ⟨fromOuter, notInner⟩, fun _ outside => if_neg outside⟩
  have outside :
      ∀ node, ¬ graph.Reaches outer node → early node = late node ∧ carried node = 1 :=
    fun node apart =>
      ⟨elsewhere node fun both => apart both.1, without node fun both => apart both.1⟩
  have begins :
      graph.Reaches outer bottom → early outer = late outer * carried outer := by
    intro above
    rw [within outer (Reaches.refl outer) notUp]
    exact atOuter above
  have product :
      ((graph.path bottom).map early).prod =
        ((graph.path bottom).map late).prod * carried bottom := by
    refine linked.prod_path_carried reached ?_ ?_
    · by_cases atRoot : root = outer
      · rw [atRoot]
        exact begins (atRoot ▸ reached)
      · have apart : ¬ graph.Reaches outer root :=
          fun up => atRoot (linked.eq_root_of_reaches up).symm
        obtain ⟨same, nothing⟩ := outside root apart
        rw [nothing, same, mul_one]
    · intro holder child member _ toBottom
      have edge : graph.Reaches holder child := Reaches.child member
      by_cases fromOuter : graph.Reaches outer child
      · by_cases isOuter : outer = child
        · subst isOuter
          rw [(outside holder (linked.not_reaches_parent member)).2, one_mul]
          exact begins toBottom
        · have holderBelow := linked.reaches_parent fromOuter isOuter member
          by_cases isInner : inner = child
          · subst isInner
            rw [within holder holderBelow (linked.not_reaches_parent member), atInner toBottom,
              without inner fun both => both.2 (Reaches.refl inner), mul_one]
          · by_cases fromInner : graph.Reaches inner child
            · have holderInner := linked.reaches_parent fromInner isInner member
              have apart : ¬ (graph.Reaches outer child ∧ graph.Reaches child inner) :=
                fun both => isInner (linked.reaches_antisymm fromInner both.2)
              rw [without holder fun both => both.2 holderInner,
                without child fun both => both.2 fromInner, elsewhere child apart, one_mul, mul_one]
            · have notHolder : ¬ graph.Reaches inner holder := fun up => fromInner (up.trans edge)
              have innerBelow := passes (fromOuter.trans toBottom)
              have toInner :=
                (linked.reaches_comparable toBottom innerBelow).resolve_right fromInner
              rw [within holder holderBelow notHolder, within child fromOuter fromInner]
              exact between child fromOuter isOuter toInner (Ne.symm isInner) innerBelow
      · have apart : ¬ graph.Reaches outer holder := fun up => fromOuter (up.trans edge)
        obtain ⟨same, nothing⟩ := outside child fromOuter
        rw [(outside holder apart).2, nothing, same, one_mul, mul_one]
  rw [product, without bottom fun both => both.2 (passes both.1), mul_one]

end Linked

/-- Factors that are left out count as ones. -/
theorem prod_map_filter
    (kept : NodeId → Bool)
    (factor : NodeId → M)
    (nodes : List NodeId) :
    ((nodes.filter kept).map factor).prod =
      (nodes.map fun node => if kept node then factor node else 1).prod := by
  induction nodes with
  | nil => rfl
  | cons node rest ih =>
      cases present : kept node with
      | true => simp [present, ih]
      | false => simp [present, ih]

section Shares

variable {reading : Interpretation M} {place other : NodeId → Transform} {node id : NodeId}

/-- A placement is the product of the shares along the path. -/
theorem placementWith_eq :
    graph.placementWith reading place id =
      ((graph.path id).map (graph.share reading place)).prod :=
  prod_map_filter _ _ _

/-- A node that is not removed has the motion of its transform as its share. -/
theorem share_of_present
    (present : graph.isRemoved node = false) :
    graph.share reading place node = reading.motion (place node) := by
  simp [share, present]

/-- A removed node has no share. -/
theorem share_of_removed
    (removed : graph.isRemoved node = true) :
    graph.share reading place node = 1 := by
  simp [share, removed]

/-- A node that moves nothing has no share, removed or not. -/
theorem share_of_rest
    (rest : reading.motion (place node) = 1) :
    graph.share reading place node = 1 := by
  rw [share, rest, ite_self]

/-- A placement depends on the transforms along the path only. -/
theorem Linked.placementWith_congr
    (linked : graph.Linked)
    (same : ∀ upper, graph.Reaches upper id → place upper = other upper) :
    graph.placementWith reading place id = graph.placementWith reading other id := by
  rw [placementWith, placementWith]
  congr 1
  refine List.map_congr_left fun upper listed => ?_
  rw [same upper (linked.mem_path.mp (List.mem_filter.mp listed).1)]

/-- A share depends on the node's own transform only. -/
theorem share_congr
    (same : place node = other node) :
    graph.share reading place node = graph.share reading other node := by
  rw [share, share, same]

end Shares

end SceneGraph

end Motions

namespace SceneGraph

variable {graph : SceneGraph}

/-- Above a node, those that keep their places are its holder and those above the holder. -/
theorem Linked.filter_stays_ancestors
    (linked : graph.Linked)
    {id holder : NodeId}
    (held : graph.holder? id = some holder) :
    (graph.ancestors id).filter graph.stays =
      holder :: (graph.ancestors holder).filter graph.stays := by
  induction id using Nat.strongRecOn with
  | ind id ih =>
      cases parent : (graph.node id).parent with
      | none =>
          rw [holder?, ancestors_orphan parent] at held
          cases held
      | some upper =>
          have member := linked.mem_of_parent parent
          rw [holder?, linked.ancestors_child member] at held
          rw [linked.ancestors_child member]
          cases stays : graph.stays upper with
          | true =>
              rw [List.find?_cons_of_pos stays] at held
              rw [List.filter_cons_of_pos stays, Option.some.inj held]
          | false =>
              rw [List.find?_cons_of_neg (by simp [stays])] at held
              rw [List.filter_cons_of_neg (by simp [stays])]
              exact ih upper (linked.forward member).1 held

/-- The ancestors of a survivor are those that survive. -/
theorem Linked.ancestors_commit
    (linked : graph.Linked)
    (plan : Plan)
    {id : NodeId}
    (reached : graph.Reaches root id)
    (stays : (commit graph plan).stays id = true) :
    (commit graph plan).ancestors id =
      (graph.ancestors id).filter (commit graph plan).stays := by
  have marked := sameLinks_markPlan graph plan
  have markedLinked := marked.linked linked
  have treeLinked := linked_commit linked plan
  induction id using Nat.strongRecOn with
  | ind id ih =>
      by_cases atRoot : id = root
      · rw [atRoot, ancestors_orphan treeLinked.root_orphan, ancestors_orphan linked.root_orphan]
        rfl
      · have survives : (markPlan graph plan).isRemoved id = false := by
          rw [stays_commit graph plan] at stays
          simpa [SceneGraph.stays, atRoot] using stays
        have parent := parent_commit_of_survives linked plan reached atRoot survives
        have rootAbove : root ∈ (markPlan graph plan).ancestors id := by
          rw [marked.ancestors_eq, linked.mem_ancestors]
          exact ⟨reached, Ne.symm atRoot⟩
        have some : ((markPlan graph plan).holder? id).isSome = true := by
          rw [holder?, List.find?_isSome]
          exact ⟨root, rootAbove, by simp [SceneGraph.stays]⟩
        obtain ⟨holder, held⟩ := Option.isSome_iff_exists.mp some
        obtain ⟨holderStays, exposes⟩ := markedLinked.exposes_of_holder? held
        have below : graph.Reaches holder id := marked.reaches_eq ▸ exposes.reaches
        have before := (linked.forward_of_reaches below exposes.differ).1
        have filtered := markedLinked.filter_stays_ancestors held
        rw [marked.ancestors_eq, marked.ancestors_eq, ← stays_commit graph plan] at filtered
        rw [held] at parent
        rw [← stays_commit graph plan] at holderStays
        rw [treeLinked.ancestors_child (treeLinked.mem_of_parent parent), filtered,
          ih holder before (linked.reached_above reached below) holderStays]

/-- A commit leaves out of a path what loses its place. -/
theorem Linked.path_commit
    (linked : graph.Linked)
    (plan : Plan)
    {id : NodeId}
    (reached : graph.Reaches root id)
    (stays : (commit graph plan).stays id = true) :
    (commit graph plan).path id = (graph.path id).filter (commit graph plan).stays := by
  rw [path, path, linked.ancestors_commit plan reached stays, List.filter_reverse,
    List.filter_cons_of_pos stays]

/-- After a commit, the present nodes on a path are the present ones on the old path. -/
theorem Linked.present_path_commit
    (linked : graph.Linked)
    (plan : Plan)
    {id : NodeId}
    (reached : graph.Reaches root id)
    (present : (commit graph plan).isRemoved id = false) :
    ((commit graph plan).path id).filter (fun node => !(commit graph plan).isRemoved node) =
      (graph.path id).filter fun node => !(commit graph plan).isRemoved node := by
  have stays : (commit graph plan).stays id = true := by
    simp [SceneGraph.stays, present]
  rw [linked.path_commit plan reached stays, List.filter_filter]
  refine List.filter_congr fun node _ => ?_
  cases removed : (commit graph plan).isRemoved node with
  | true => rfl
  | false => simp [SceneGraph.stays, removed]

/-- After a commit, a node stands where what the nodes on its old path add leads. -/
theorem Linked.placement_commit
    {M : Type u}
    [Monoid M]
    (linked : graph.Linked)
    (reading : Interpretation M)
    (plan : Plan)
    {id : NodeId}
    (reached : graph.Reaches root id)
    (present : (commit graph plan).isRemoved id = false) :
    (commit graph plan).placement reading id =
      ((graph.path id).map ((commit graph plan).share reading fun node =>
        ((commit graph plan).node node).transform)).prod := by
  rw [placement, placementWith, linked.present_path_commit plan reached present, prod_map_filter]
  rfl

end SceneGraph

end SceneMarkup.Scene
