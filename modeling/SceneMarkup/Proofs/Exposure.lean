import SceneMarkup.Proofs.Tree

namespace SceneMarkup.Scene.SceneGraph

/-!
# Looking through nodes

Some nodes can be looked through.  A node is exposed to another one above it
when this is so for everything strictly between them.  When the nodes looked
through are the removed ones, the exposed survivors are what the upper node
adopts when removed nodes give way; seen from below, the adopting node is the
nearest one that stays.
-/

/-- What is seen from `id` when some nodes are looked through, these nodes included. -/
def exposed (graph : SceneGraph) (through : NodeId → Bool) (id : NodeId) : List NodeId :=
  (graph.below id).flatMap fun child =>
    child.val :: if through child.val then exposed graph through child.val else []
termination_by graph.size - id
decreasing_by exact child.closer

/-- A child, and what is seen through it. -/
def seen (graph : SceneGraph) (through : NodeId → Bool) (child : NodeId) : List NodeId :=
  child :: if through child then graph.exposed through child else []

/-- The survivors that are seen from `id` when removed nodes are looked through. -/
def survivors (graph : SceneGraph) (id : NodeId) : List NodeId :=
  (graph.exposed graph.isRemoved id).filter fun lower => !graph.isRemoved lower

/-- The survivors strictly below a node, in the order of its traversal. -/
def keptBelow (graph : SceneGraph) (id : NodeId) : List NodeId :=
  ((graph.children id).flatMap graph.traverse).filter fun lower => !graph.isRemoved lower

/-- Whether a node keeps its place: survivors do, and so does the root. -/
def stays (graph : SceneGraph) (id : NodeId) : Bool :=
  !graph.isRemoved id || id == root

/-- The nearest node above that keeps its place. -/
def holder? (graph : SceneGraph) (id : NodeId) : Option NodeId :=
  (graph.ancestors id).find? graph.stays

/-- What is seen of a child is the child and, if it is looked through, what it exposes. -/
theorem mem_seen
    {graph : SceneGraph}
    {through : NodeId → Bool}
    {child lower : NodeId} :
    lower ∈ graph.seen through child ↔
      lower = child ∨ through child = true ∧ lower ∈ graph.exposed through child := by
  unfold seen
  split <;> simp [*]

/-- The lower node is strictly below the upper one, and all between can be looked through. -/
structure Exposes
    (graph : SceneGraph)
    (through : NodeId → Bool)
    (upper lower : NodeId) :
    Prop where
  reaches : graph.Reaches upper lower
  differ : upper ≠ lower
  between :
    ∀ middle : NodeId,
      graph.Reaches upper middle → upper ≠ middle →
      graph.Reaches middle lower → middle ≠ lower →
      through middle = true

namespace Linked

variable {graph : SceneGraph} {through : NodeId → Bool}

/-- A node exposes what is seen of its children. -/
theorem exposed_eq
    (linked : graph.Linked)
    (id : NodeId) :
    graph.exposed through id = (graph.children id).flatMap (graph.seen through) := by
  rw [exposed]
  exact linked.below_flatMap id (graph.seen through)

/-- A child is exposed by its parent. -/
theorem exposes_child
    (linked : graph.Linked)
    {holder child : NodeId}
    (member : child ∈ graph.children holder) :
    graph.Exposes through holder child where
  reaches := Reaches.child member
  differ := Nat.ne_of_lt (linked.forward member).1
  between := by
    intro middle fromHolder notHolder toChild notChild
    have up := linked.reaches_parent toChild notChild member
    exact absurd (linked.reaches_antisymm fromHolder up) notHolder

/-- What a removed child exposes is exposed to its parent. -/
theorem exposes_of_child
    (linked : graph.Linked)
    {holder child lower : NodeId}
    (member : child ∈ graph.children holder)
    (clear : through child = true)
    (exposes : graph.Exposes through child lower) :
    graph.Exposes through holder lower where
  reaches := (Reaches.child member).trans exposes.reaches
  differ := by
    rintro rfl
    exact linked.not_reaches_parent member exposes.reaches
  between := by
    intro middle fromHolder notHolder toLower notLower
    rcases Reaches.head_iff.mp fromHolder with same | ⟨other, otherMember, down⟩
    · exact absurd same notHolder
    · have same : child = other :=
        linked.sibling_unique member otherMember exposes.reaches (down.trans toLower)
      subst same
      by_cases atChild : child = middle
      · exact atChild ▸ clear
      · exact exposes.between middle down atChild toLower notLower

/-- The list of exposed nodes holds those that are exposed. -/
theorem mem_exposed
    (linked : graph.Linked)
    {upper lower : NodeId} :
    lower ∈ graph.exposed through upper ↔ graph.Exposes through upper lower := by
  induction upper using linked.childrenFirst with
  | step upper ih =>
      rw [linked.exposed_eq, List.mem_flatMap]
      constructor
      · rintro ⟨child, member, listed⟩
        rcases mem_seen.mp listed with same | ⟨removed, deeper⟩
        · exact same ▸ linked.exposes_child member
        · exact linked.exposes_of_child member removed ((ih child member).mp deeper)
      · intro exposes
        rcases Reaches.head_iff.mp exposes.reaches with same | ⟨child, member, down⟩
        · exact absurd same exposes.differ
        · refine ⟨child, member, ?_⟩
          by_cases atChild : child = lower
          · exact mem_seen.mpr (.inl atChild.symm)
          · have removed : through child = true :=
              exposes.between child (Reaches.child member)
                (Nat.ne_of_lt (linked.forward member).1) down atChild
            rw [mem_seen, ih child member]
            refine .inr ⟨removed, down, atChild, ?_⟩
            intro middle fromChild _ toLower notLower
            refine exposes.between middle ((Reaches.child member).trans fromChild) ?_
              toLower notLower
            rintro rfl
            exact linked.not_reaches_parent member fromChild

/-- What is exposed depends on what can be looked through below only. -/
theorem exposed_congr
    (linked : graph.Linked)
    {other : NodeId → Bool}
    {id : NodeId}
    (same : ∀ lower, graph.Reaches id lower → id ≠ lower → other lower = through lower) :
    graph.exposed other id = graph.exposed through id := by
  induction id using linked.childrenFirst with
  | step id ih =>
      rw [linked.exposed_eq, linked.exposed_eq]
      refine List.flatMap_congr fun child member => ?_
      have after := Nat.ne_of_lt (linked.forward member).1
      have inner : graph.exposed other child = graph.exposed through child := by
        refine ih child member fun lower reaches differ => ?_
        refine same lower ((Reaches.child member).trans reaches) ?_
        rintro rfl
        exact linked.not_reaches_parent member reaches
      rw [seen, seen, same child (Reaches.child member) after, inner]

/-- What is seen of a child is reached from it. -/
theorem reaches_of_seen
    (linked : graph.Linked)
    {child lower : NodeId}
    (listed : lower ∈ graph.seen through child) :
    graph.Reaches child lower := by
  rcases mem_seen.mp listed with same | ⟨_, deeper⟩
  · exact same ▸ Reaches.refl lower
  · exact (linked.mem_exposed.mp deeper).reaches

/-- Exposed nodes are listed in the order of the traversal. -/
theorem cons_exposed_sublist
    (linked : graph.Linked)
    (id : NodeId) :
    (id :: graph.exposed through id).Sublist (graph.traverse id) := by
  induction id using linked.childrenFirst with
  | step id ih =>
      rw [linked.traverse_eq, linked.exposed_eq]
      apply List.Sublist.cons_cons
      generalize graph.children id = children at ih
      induction children with
      | nil => exact List.Sublist.slnil
      | cons child rest restIh =>
          rw [List.flatMap_cons, List.flatMap_cons]
          apply List.Sublist.append
          · unfold seen
            by_cases removed : through child
            · rw [if_pos removed]
              exact ih child (by simp)
            · rw [if_neg removed]
              exact (List.Sublist.cons_cons child (List.nil_sublist _)).trans
                (ih child (by simp))
          · exact restIh fun other member => ih other (by simp [member])

/-- Survivors are exposed through removed nodes and not removed themselves. -/
theorem mem_survivors
    (linked : graph.Linked)
    {upper lower : NodeId} :
    lower ∈ graph.survivors upper ↔
      graph.Exposes graph.isRemoved upper lower ∧ graph.isRemoved lower = false := by
  simp [survivors, linked.mem_exposed]

/-- No survivor is listed twice. -/
theorem survivors_nodup
    (linked : graph.Linked)
    (id : NodeId) :
    (graph.survivors id).Nodup :=
  ((linked.cons_exposed_sublist id).nodup (linked.traverse_nodup id)).of_cons.filter _

/-- A node on the way to an exposed one that cannot be looked through is that one. -/
theorem eq_of_exposes
    {upper middle lower : NodeId}
    (exposes : graph.Exposes through upper lower)
    (fromUpper : graph.Reaches upper middle)
    (notUpper : upper ≠ middle)
    (toLower : graph.Reaches middle lower)
    (solid : through middle = false) :
    middle = lower := by
  by_contra notLower
  have clear := exposes.between middle fromUpper notUpper toLower notLower
  rw [solid] at clear
  cases clear

/-- Survivors with a common node below them are the same. -/
theorem survivor_unique
    (linked : graph.Linked)
    {upper first second lower : NodeId}
    (inFirst : first ∈ graph.survivors upper)
    (inSecond : second ∈ graph.survivors upper)
    (fromFirst : graph.Reaches first lower)
    (fromSecond : graph.Reaches second lower) :
    first = second := by
  obtain ⟨exposesFirst, firstSurvives⟩ := linked.mem_survivors.mp inFirst
  obtain ⟨exposesSecond, secondSurvives⟩ := linked.mem_survivors.mp inSecond
  rcases linked.reaches_comparable fromFirst fromSecond with down | down
  · exact eq_of_exposes exposesSecond exposesFirst.reaches exposesFirst.differ down
      firstSurvives
  · exact (eq_of_exposes exposesFirst exposesSecond.reaches exposesSecond.differ down
      secondSurvives).symm

/-- Whatever is below a node is exposed and removed, or below a survivor. -/
theorem reaches_cases
    (linked : graph.Linked)
    {upper lower : NodeId}
    (reaches : graph.Reaches upper lower)
    (differ : upper ≠ lower) :
    (graph.Exposes graph.isRemoved upper lower ∧ graph.isRemoved lower = true) ∨
      ∃ survivor ∈ graph.survivors upper, graph.Reaches survivor lower := by
  induction reaches with
  | refl => exact absurd rfl differ
  | @tail holder child down member ih =>
      by_cases direct : upper = holder
      · subst direct
        have exposes : graph.Exposes graph.isRemoved upper child := linked.exposes_child member
        cases removed : graph.isRemoved child with
        | true => exact .inl ⟨exposes, rfl⟩
        | false =>
            exact .inr ⟨child, linked.mem_survivors.mpr ⟨exposes, removed⟩,
              Reaches.refl child⟩
      · rcases ih direct with ⟨exposes, holderRemoved⟩ | ⟨survivor, listed, rest⟩
        · have further : graph.Exposes graph.isRemoved upper child := by
            refine ⟨exposes.reaches.trans (Reaches.child member), ?_, ?_⟩
            · rintro rfl
              exact linked.not_reaches_parent member exposes.reaches
            · intro middle fromUpper notUpper toChild notChild
              have up := linked.reaches_parent toChild notChild member
              by_cases atHolder : middle = holder
              · exact atHolder ▸ holderRemoved
              · exact exposes.between middle fromUpper notUpper up atHolder
          cases removed : graph.isRemoved child with
          | true => exact .inl ⟨further, rfl⟩
          | false =>
              exact .inr ⟨child, linked.mem_survivors.mpr ⟨further, removed⟩,
                Reaches.refl child⟩
        · exact .inr ⟨survivor, listed, rest.trans (Reaches.child member)⟩

/-- Kept below a node are the survivors that it reaches, itself excepted. -/
theorem mem_keptBelow
    (linked : graph.Linked)
    {upper lower : NodeId} :
    lower ∈ graph.keptBelow upper ↔
      graph.Reaches upper lower ∧ upper ≠ lower ∧ graph.isRemoved lower = false := by
  rw [keptBelow, List.mem_filter, List.mem_flatMap, Bool.not_eq_true']
  constructor
  · rintro ⟨⟨child, member, listed⟩, survives⟩
    have down := linked.mem_traverse.mp listed
    refine ⟨(Reaches.child member).trans down, ?_, survives⟩
    rintro rfl
    exact linked.not_reaches_parent member down
  · rintro ⟨reaches, differ, survives⟩
    rcases Reaches.head_iff.mp reaches with same | ⟨child, member, down⟩
    · exact absurd same differ
    · exact ⟨⟨child, member, linked.mem_traverse.mpr down⟩, survives⟩

/-- What is exposed to a node that stays has it as its holder. -/
theorem holder?_of_exposes
    (linked : graph.Linked)
    {upper lower : NodeId}
    (upperStays : graph.stays upper = true)
    (exposes : graph.Exposes graph.isRemoved upper lower) :
    graph.holder? lower = some upper := by
  induction lower using Nat.strongRecOn with
  | ind lower ih =>
      rcases Reaches.tail_iff.mp exposes.reaches with same | ⟨parent, down, member⟩
      · exact absurd same exposes.differ
      · rw [holder?, linked.ancestors_child member]
        by_cases direct : upper = parent
        · subst direct
          rw [List.find?_cons_of_pos upperStays]
        · have after := (linked.forward member).1
          have removed : graph.isRemoved parent = true :=
            exposes.between parent down direct (Reaches.child member) (Nat.ne_of_lt after)
          have notRoot : parent ≠ root := by
            rintro rfl
            exact direct (linked.eq_root_of_reaches down)
          have gone : ¬ graph.stays parent = true := by
            simp [stays, removed, notRoot]
          rw [List.find?_cons_of_neg gone]
          refine ih parent after ⟨down, direct, ?_⟩
          intro middle fromUpper notUpper toParent notParent
          refine exposes.between middle fromUpper notUpper
            (toParent.trans (Reaches.child member)) ?_
          rintro rfl
          exact linked.not_reaches_parent member toParent

/-- The holder of a node stays, and the node is exposed to it. -/
theorem exposes_of_holder?
    (linked : graph.Linked)
    {upper lower : NodeId}
    (holder : graph.holder? lower = some upper) :
    graph.stays upper = true ∧ graph.Exposes graph.isRemoved upper lower := by
  induction lower using Nat.strongRecOn with
  | ind lower ih =>
      cases parentLink : (graph.node lower).parent with
      | none =>
          rw [holder?, ancestors_orphan parentLink] at holder
          cases holder
      | some parent =>
          have member := linked.mem_of_parent parentLink
          rw [holder?, linked.ancestors_child member] at holder
          by_cases parentStays : graph.stays parent
          · rw [List.find?_cons_of_pos parentStays] at holder
            cases holder
            exact ⟨parentStays, linked.exposes_child member⟩
          · rw [List.find?_cons_of_neg parentStays] at holder
            obtain ⟨upperStays, exposes⟩ := ih parent (linked.forward member).1 holder
            refine ⟨upperStays, exposes.reaches.trans (Reaches.child member), ?_, ?_⟩
            · rintro rfl
              exact linked.not_reaches_parent member exposes.reaches
            · intro middle fromUpper notUpper toLower notLower
              have up := linked.reaches_parent toLower notLower member
              by_cases atParent : middle = parent
              · subst atParent
                simp only [stays, Bool.or_eq_true, not_or] at parentStays
                simpa using parentStays.1
              · exact exposes.between middle fromUpper notUpper up atParent

/-- The survivors below a node are its exposed survivors, each with the survivors below it. -/
theorem flatMap_survivors
    (linked : graph.Linked)
    (id : NodeId) :
    ((graph.survivors id).flatMap fun survivor => survivor :: graph.keptBelow survivor) =
      graph.keptBelow id := by
  induction id using linked.childrenFirst with
  | step id ih =>
      have atChild :
          ∀ child ∈ graph.children id,
            (((graph.seen graph.isRemoved child).filter fun lower => !graph.isRemoved lower).flatMap
                fun survivor => survivor :: graph.keptBelow survivor) =
              (graph.traverse child).filter fun lower => !graph.isRemoved lower := by
        intro child member
        rw [linked.traverse_eq child]
        cases removed : graph.isRemoved child with
        | true =>
            have below := ih child member
            simpa [seen, removed, keptBelow, survivors] using below
        | false => simp [seen, removed, keptBelow]
      rw [survivors, linked.exposed_eq, List.filter_flatMap, List.flatMap_assoc,
        List.flatMap_congr atChild, keptBelow, List.filter_flatMap]

end Linked

end SceneMarkup.Scene.SceneGraph
