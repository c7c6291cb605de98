import SceneMarkup.Proofs.Tree

namespace SceneMarkup.Scene.SceneGraph

/-!
# Walks that stop at bones

What is below a bone belongs to the skeleton.  The walk of a run lists exactly
the nodes that are reached without a bone, and whatever is below a node comes
before it.
-/

/-- No bone is met from the upper node to the lower one, both included. -/
def Boneless (graph : SceneGraph) (upper lower : NodeId) : Prop :=
  ∀ middle, graph.Reaches upper middle → graph.Reaches middle lower →
    (graph.node middle).kind.isBone = false

/-- The node is below the upper one and is met without a bone. -/
structure ReachesBoneless (graph : SceneGraph) (upper lower : NodeId) : Prop where
  reaches : graph.Reaches upper lower
  boneless : graph.Boneless upper lower

namespace Linked

variable {graph : SceneGraph}

/-- From the root, a node is met without a bone if no bone is above it. -/
theorem met_iff
    (linked : graph.Linked)
    {id : NodeId} :
    graph.ReachesBoneless root id ↔
      graph.Reaches root id ∧
        ∀ upper, graph.Reaches upper id → (graph.node upper).kind.isBone = false := by
  constructor
  · intro met
    refine ⟨met.reaches, fun upper reaches => ?_⟩
    exact met.boneless upper (linked.reached_above met.reaches reaches) reaches
  · rintro ⟨reached, free⟩
    exact ⟨reached, fun middle _ reaches => free middle reaches⟩

theorem boneless_of_child
    (linked : graph.Linked)
    {holder child lower : NodeId}
    (notBone : (graph.node holder).kind.isBone = false)
    (member : child ∈ graph.children holder)
    (further : graph.ReachesBoneless child lower) :
    graph.ReachesBoneless holder lower where
  reaches := (Reaches.child member).trans further.reaches
  boneless := by
    intro middle fromHolder toLower
    rcases Reaches.head_iff.mp fromHolder with same | ⟨other, otherMember, down⟩
    · exact same ▸ notBone
    · have same :=
        linked.sibling_unique otherMember member (down.trans toLower) further.reaches
      exact further.boneless middle (same ▸ down) toLower

/-- The walk of a run lists what is met without a bone. -/
theorem mem_innermostFirst
    (linked : graph.Linked)
    {upper lower : NodeId} :
    lower ∈ graph.innermostFirst upper ↔ graph.ReachesBoneless upper lower := by
  induction upper using linked.childrenFirst with
  | step upper ih =>
      rw [innermostFirst]
      cases bone : (graph.node upper).kind.isBone with
      | true =>
          have met : ¬ graph.ReachesBoneless upper lower := by
            intro further
            have notBone := further.boneless upper (Reaches.refl upper) further.reaches
            rw [bone] at notBone
            cases notBone
          simp [met]
      | false =>
          rw [if_neg Bool.false_ne_true, List.mem_append, linked.below_flatMap, List.mem_flatMap,
            List.mem_singleton]
          constructor
          · rintro (⟨child, member, listed⟩ | rfl)
            · exact linked.boneless_of_child bone member ((ih child member).mp listed)
            · refine ⟨Reaches.refl _, fun middle down up => ?_⟩
              exact linked.reaches_antisymm down up ▸ bone
          · intro further
            rcases Reaches.head_iff.mp further.reaches with same | ⟨child, member, down⟩
            · exact .inr same.symm
            · refine .inl ⟨child, member, (ih child member).mpr ⟨down, ?_⟩⟩
              exact fun middle fromChild toLower =>
                further.boneless middle ((Reaches.child member).trans fromChild) toLower

/-- In the walk of a run, no node comes before one that is at or below it. -/
theorem innermostFirst_ordered
    (linked : graph.Linked)
    (id : NodeId) :
    (graph.innermostFirst id).Pairwise fun first second => ¬ graph.Reaches first second := by
  induction id using linked.childrenFirst with
  | step id ih =>
      rw [innermostFirst]
      cases bone : (graph.node id).kind.isBone with
      | true => exact List.Pairwise.nil
      | false =>
          rw [if_neg Bool.false_ne_true, linked.below_flatMap, List.pairwise_append]
          refine ⟨?_, List.pairwise_singleton _ _, ?_⟩
          · refine List.pairwise_flatMap.mpr ⟨ih, ?_⟩
            refine (linked.distinct id).imp_of_mem ?_
            intro first second firstMember secondMember differ upper inFirst lower inSecond down
            have fromFirst := (linked.mem_innermostFirst.mp inFirst).reaches
            have fromSecond := (linked.mem_innermostFirst.mp inSecond).reaches
            exact differ
              (linked.sibling_unique firstMember secondMember (fromFirst.trans down) fromSecond)
          · intro lower listed last atEnd up
            obtain ⟨child, member, inChild⟩ := List.mem_flatMap.mp listed
            rw [List.mem_singleton.mp atEnd] at up
            exact linked.not_reaches_parent member
              ((linked.mem_innermostFirst.mp inChild).reaches.trans up)

/-- When a node is its turn in the walk, all below it that is met without a bone came before, and
nothing above it did. -/
theorem innermostFirst_split
    (linked : graph.Linked)
    {top id : NodeId}
    {before after : List NodeId}
    (whole : graph.innermostFirst top = before ++ id :: after) :
    (∀ lower, id ≠ lower → graph.ReachesBoneless id lower → lower ∈ before) ∧
      (∀ upper ∈ before, ¬ graph.Reaches upper id) := by
  have ordered := linked.innermostFirst_ordered top
  rw [whole, List.pairwise_append, List.pairwise_cons] at ordered
  obtain ⟨_, ⟨notAfter, _⟩, notBefore⟩ := ordered
  refine ⟨fun lower differ further => ?_, fun upper member => notBefore upper member id (by simp)⟩
  have listedHere : id ∈ graph.innermostFirst top := by simp [whole]
  have here := linked.mem_innermostFirst.mp listedHere
  have listed : lower ∈ graph.innermostFirst top := by
    refine linked.mem_innermostFirst.mpr ⟨here.reaches.trans further.reaches, ?_⟩
    intro middle fromTop toLower
    rcases linked.reaches_comparable toLower further.reaches with up | down
    · exact here.boneless middle fromTop up
    · exact further.boneless middle down toLower
  rw [whole, List.mem_append, List.mem_cons] at listed
  rcases listed with member | rfl | member
  · exact member
  · exact absurd rfl differ
  · exact absurd further.reaches (notAfter lower member)

end Linked

end SceneMarkup.Scene.SceneGraph
