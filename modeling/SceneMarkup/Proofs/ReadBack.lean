import SceneMarkup.Proofs.Legible

namespace SceneMarkup.Markup

open Scene

/-!
# Markup reads back as its scene

The elements that a reader finds in the markup of a node stand one for one, and
nested alike, for the nodes that are left in the scene from there on down to
bones.
-/

/-- A node and the nodes that are written inside its element. -/
inductive Sprout
  | node (id : NodeId) (inside : List Sprout)

/-- The nodes that are written for `id` and everything below it: a removed node leaves those below
it in its place, and below a bone there are none. -/
def shown (graph : SceneGraph) (id : NodeId) : List Sprout :=
  let inside : Unit → List Sprout := fun _ =>
    (graph.below id).flatMap fun child => shown graph child.val
  if graph.isRemoved id then inside ()
  else if (graph.node id).kind.isBone then [.node id []]
  else [.node id (inside ())]
termination_by graph.size - id
decreasing_by exact child.closer

/-- An element stands for a node if it has the heading of the node and the elements inside it stand
for the nodes inside. -/
inductive Stands (labels : Labels) : Sprout → Element → Prop
  | void
      {id : NodeId}
      {heading : Heading}
      (own : headingAt labels id (labels.graph.node id).transform = .ok heading) :
      Stands labels (.node id []) (.void heading.tag heading.attributes)
  | node
      {id : NodeId}
      {inside : List Sprout}
      {heading : Heading}
      {children : List Element}
      (own : headingAt labels id (labels.graph.node id).transform = .ok heading)
      (within : List.Forall₂ (Stands labels) inside children) :
      Stands labels (.node id inside) (.element heading.tag heading.attributes children)

section Elements

variable {labels : Labels} {id : NodeId}

/-- The elements that are made for a node stand for the nodes that are written for it. -/
theorem elementsOf_stands
    {elements : List Element}
    (written : elementsOf labels id = .ok elements) :
    List.Forall₂ (Stands labels) (shown labels.graph id) elements := by
  -- Links lead forward, so there are fewer nodes after a child than after the node.
  induction id using (measure fun id => labels.graph.size - id).wf.induction
    generalizing elements with
  | h id ih =>
      have inside :
          ∀ parts : List (List Element), partsBelow labels id = .ok parts →
            List.Forall₂ (Stands labels)
              ((labels.graph.below id).flatMap fun child => shown labels.graph child.val)
              parts.flatten := by
        intro parts done
        rw [← List.flatMap_id]
        exact flatMap_of_mapM (fun child _ part made => ih child.val child.closer made) done
      rw [shown]
      cases makes_of_elementsOf written with
      | opened removed done =>
          rw [if_pos removed]
          exact inside _ done
      | handle present bone =>
          rw [present, if_neg Bool.false_ne_true, if_pos bone]
          have handle :
              headingAt labels id (labels.graph.node id).transform =
                .ok ⟨"primitive", [⟨"object", .expression (labels.nodeExpression id)⟩]⟩ := by
            rw [headingAt, if_pos bone]
          exact List.Forall₂.cons (Stands.void handle) List.Forall₂.nil
      | element present other printed done =>
          rw [present, if_neg Bool.false_ne_true, other, if_neg Bool.false_ne_true]
          have own := headingAt_of_writtenAttributes other printed
          refine List.Forall₂.cons ?_ List.Forall₂.nil
          rw [elementAround]
          split
          next none =>
            have nothing := SceneGraph.below_of_no_children (List.isEmpty_iff.mp none)
            rw [nothing]
            exact Stands.void own
          next => exact Stands.node own (inside _ done)

mutual

/-- The headings in an element that stands for a node are those of nodes. -/
theorem owned_of_stands
    (element : Element)
    {sprout : Sprout}
    (stands : Stands labels sprout element) :
    ∀ heading ∈ element.headings,
      ∃ id, headingAt labels id (labels.graph.node id).transform = .ok heading := by
  cases stands with
  | void own =>
      rw [Element.headings]
      exact List.forall_mem_singleton.mpr ⟨_, own⟩
  | node own within =>
      rw [Element.headings]
      exact List.forall_mem_cons.mpr ⟨⟨_, own⟩, owned_of_forall₂ _ within⟩

theorem owned_of_forall₂
    (elements : List Element)
    {forest : List Sprout}
    (stand : List.Forall₂ (Stands labels) forest elements) :
    ∀ heading ∈ headingsOf elements,
      ∃ id, headingAt labels id (labels.graph.node id).transform = .ok heading := by
  cases stand with
  | nil => exact List.forall_mem_nil _
  | @cons sprout element forest rest first others =>
      rw [headingsOf]
      exact List.forall_mem_append.mpr
        ⟨owned_of_stands element first, owned_of_forall₂ rest others⟩

end

/-- Elements that stand for nodes can be read back, with all inside them. -/
theorem legible_of_forall₂
    (named : ∀ pair ∈ labels.index.pairs, IsName pair.name)
    {elements : List Element}
    {forest : List Sprout}
    (stand : List.Forall₂ (Stands labels) forest elements) :
    Legible elements := by
  intro heading member
  obtain ⟨id, own⟩ := owned_of_forall₂ elements stand heading member
  exact legible_headingAt named own

end Elements

end SceneMarkup.Markup
