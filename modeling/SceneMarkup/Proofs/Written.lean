import SceneMarkup.Component.Conversion
import SceneMarkup.Proofs.FixedPoint

namespace SceneMarkup.Markup

open Scene

/-!
# Which elements are written

Reading the tags of the markup from top to bottom gives one heading for every
node that is written, in the order of the traversal cut at bones.  After pruning
these are the nodes that were there before, but for the groups that may go.
-/

/-- What an element says before its children. -/
structure Heading where
  tag : String
  attributes : List WrittenAttribute
  deriving Repr, DecidableEq

mutual

/-- The headings of an element and of all inside it, in the order written. -/
def Element.headings : Element → List Heading
  | .void tag attributes => [⟨tag, attributes⟩]
  | .element tag attributes children => ⟨tag, attributes⟩ :: headingsOf children

/-- The headings of elements that stand side by side. -/
def headingsOf : List Element → List Heading
  | [] => []
  | element :: rest => element.headings ++ headingsOf rest

end

/-- The headings of two rows of elements stand one row after the other. -/
theorem headingsOf_append
    (first second : List Element) :
    headingsOf (first ++ second) = headingsOf first ++ headingsOf second := by
  induction first with
  | nil => rfl
  | cons element rest ih =>
      rw [List.cons_append, headingsOf, headingsOf, ih, List.append_assoc]

/-- The heading of a node that stands at `transform`: a bone is a handle, any other node has its
tag, its name if it is written, and its attributes. -/
def headingAt (labels : Labels) (id : NodeId) (transform : Transform) : Except Malformed Heading :=
  if (labels.graph.node id).kind.isBone then
    .ok ⟨"primitive", [⟨"object", .expression (labels.nodeExpression id)⟩]⟩
  else
    (attributesAt labels id transform).map fun attributes =>
      ⟨tagAt labels id,
        nameAttributes labels id ++ attributes.map fun entry => ⟨entry.key.name, entry.value⟩⟩

/-- A heading that is made is the handle of a bone, or it has what the node prints. -/
inductive Heads (labels : Labels) (id : NodeId) (transform : Transform) : Heading → Prop
  | handle
      (bone : (labels.graph.node id).kind.isBone = true) :
      Heads labels id transform
        ⟨"primitive", [⟨"object", .expression (labels.nodeExpression id)⟩]⟩
  | element
      (other : (labels.graph.node id).kind.isBone = false)
      {attributes : Attributes}
      (printed : attributesAt labels id transform = .ok attributes) :
      Heads labels id transform
        ⟨tagAt labels id,
          nameAttributes labels id ++ attributes.map fun entry => ⟨entry.key.name, entry.value⟩⟩

/-- The heading that is computed for a node is one that the node may have. -/
theorem heads_of_headingAt
    {labels : Labels}
    {id : NodeId}
    {transform : Transform}
    {heading : Heading}
    (own : headingAt labels id transform = .ok heading) :
    Heads labels id transform heading := by
  unfold headingAt at own
  cases bone : (labels.graph.node id).kind.isBone with
  | true =>
      rw [bone, if_pos rfl] at own
      cases own
      exact Heads.handle bone
  | false =>
      rw [bone, if_neg Bool.false_ne_true] at own
      cases printed : attributesAt labels id transform with
      | error fault =>
          rw [printed] at own
          cases own
      | ok attributes =>
          rw [printed] at own
          cases own
          exact Heads.element bone printed

/-- A node has no attribute in front of its own but its name. -/
theorem eq_of_mem_nameAttributes
    {labels : Labels}
    {id : NodeId}
    {entry : WrittenAttribute}
    (member : entry ∈ nameAttributes labels id) :
    entry = ⟨"name", nameValue (labels.name id)⟩ := by
  unfold nameAttributes at member
  simp only at member
  split at member
  next => exact List.mem_singleton.mp member
  next => cases member

/-- No bone is above the node. -/
def outsideSkeleton (graph : SceneGraph) (id : NodeId) : Bool :=
  (graph.ancestors id).all fun upper => !(graph.node upper).kind.isBone

/-- The nodes that are reached, each before what is below it; nothing strictly below a bone. -/
def visible (graph : SceneGraph) : List NodeId :=
  (graph.traverse SceneGraph.root).filter (outsideSkeleton graph)

/-- The traversal cut at bones. -/
def downToBones (graph : SceneGraph) (id : NodeId) : List NodeId :=
  id ::
    if (graph.node id).kind.isBone then []
    else (graph.below id).flatMap fun child => downToBones graph child.val
termination_by graph.size - id
decreasing_by exact child.closer

/-- Outside of skeletons is what no bone reaches, itself excepted. -/
theorem outsideSkeleton_iff
    {graph : SceneGraph}
    (linked : graph.Linked)
    {id : NodeId} :
    outsideSkeleton graph id = true ↔
      ∀ upper, graph.Reaches upper id → upper ≠ id →
        (graph.node upper).kind.isBone = false := by
  rw [outsideSkeleton, List.all_eq_true]
  constructor
  · intro free upper reaches differ
    have notBone := free upper (linked.mem_ancestors.mpr ⟨reaches, differ⟩)
    simpa using notBone
  · intro free upper member
    obtain ⟨reaches, differ⟩ := linked.mem_ancestors.mp member
    simp [free upper reaches differ]

/-- The visible nodes are those that are reached with no bone above them. -/
theorem mem_visible
    {graph : SceneGraph}
    (linked : graph.Linked)
    {id : NodeId} :
    id ∈ visible graph ↔
      graph.Reaches SceneGraph.root id ∧
        ∀ upper, graph.Reaches upper id → upper ≠ id →
          (graph.node upper).kind.isBone = false := by
  rw [visible, List.mem_filter, linked.mem_traverse, outsideSkeleton_iff linked]

/-- Cutting the traversal at bones drops what has a bone above it. -/
theorem downToBones_eq
    {graph : SceneGraph}
    (linked : graph.Linked)
    (id : NodeId)
    (outside : outsideSkeleton graph id = true) :
    downToBones graph id = (graph.traverse id).filter (outsideSkeleton graph) := by
  induction id using linked.childrenFirst with
  | step id ih =>
      rw [downToBones, linked.traverse_eq, List.filter_cons_of_pos outside, linked.below_flatMap]
      apply congrArg (List.cons id)
      cases bone : (graph.node id).kind.isBone with
      | true =>
          rw [if_pos rfl, eq_comm, List.filter_eq_nil_iff]
          intro lower listed free
          obtain ⟨child, member, inChild⟩ := List.mem_flatMap.mp listed
          have below := linked.mem_traverse.mp inChild
          have differ : id ≠ lower := by
            rintro rfl
            exact linked.not_reaches_parent member below
          have notBone := (outsideSkeleton_iff linked).mp free id
            ((SceneGraph.Reaches.child member).trans below) differ
          rw [bone] at notBone
          cases notBone
      | false =>
          rw [if_neg Bool.false_ne_true, List.filter_flatMap]
          refine List.flatMap_congr fun child member => ih child member ?_
          rw [outsideSkeleton, linked.ancestors_child member, List.all_cons, bone]
          exact outside

/-- From the root, the traversal cut at bones lists what is visible. -/
theorem downToBones_root
    {graph : SceneGraph}
    (linked : graph.Linked) :
    downToBones graph SceneGraph.root = visible graph := by
  refine downToBones_eq linked _ ?_
  rw [outsideSkeleton, SceneGraph.Linked.ancestors_orphan linked.root_orphan]
  rfl

/-- Whatever stands in the second row is related to something in the first. -/
theorem exists_of_forall₂
    {relation : α → β → Prop}
    {first : List α}
    {second : List β}
    (related : List.Forall₂ relation first second)
    {other : β}
    (member : other ∈ second) :
    ∃ item, relation item other := by
  induction related with
  | nil => cases member
  | @cons item _ _ _ head _ ih =>
      rcases List.mem_cons.mp member with rfl | later
      · exact ⟨item, head⟩
      · exact ih later

/-- The headings of all parts stand in the order of the parts. -/
theorem headingsOf_flatten
    (parts : List (List Element)) :
    headingsOf parts.flatten = parts.flatMap headingsOf := by
  induction parts with
  | nil => rfl
  | cons part rest ih =>
      rw [List.flatten_cons, headingsOf_append, List.flatMap_cons, ih]

/-- What is read off parts that stand side by side matches if it matches part by part. -/
theorem flatMap_of_mapM
    {relation : β → γ → Prop}
    {step : ι → Except ε δ}
    {nodes : ι → List β}
    {reading : δ → List γ}
    {items : List ι}
    {parts : List δ}
    (each :
      ∀ item ∈ items, ∀ part, step item = .ok part →
        List.Forall₂ relation (nodes item) (reading part))
    (done : items.mapM step = .ok parts) :
    List.Forall₂ relation (items.flatMap nodes) (parts.flatMap reading) := by
  induction items generalizing parts with
  | nil =>
      cases done
      exact List.Forall₂.nil
  | cons item rest ih =>
      rw [List.mapM_cons] at done
      cases first : step item with
      | error fault =>
          rw [first] at done
          cases done
      | ok part =>
          cases others : rest.mapM step with
          | error fault =>
              rw [first, others] at done
              cases done
          | ok restParts =>
              rw [first, others] at done
              cases done
              rw [List.flatMap_cons, List.flatMap_cons]
              apply List.rel_append
              · exact each item List.mem_cons_self part first
              · exact ih (fun other member => each other (List.mem_cons_of_mem _ member)) others

/-- A node other than a bone is headed by its tag and what is written for it. -/
theorem headingAt_of_writtenAttributes
    {labels : Labels}
    {id : NodeId}
    (other : (labels.graph.node id).kind.isBone = false)
    {attributes : List WrittenAttribute}
    (written : writtenAttributes labels id = .ok attributes) :
    headingAt labels id (labels.graph.node id).transform =
      .ok ⟨tagAt labels id, attributes⟩ := by
  rw [headingAt, other, if_neg Bool.false_ne_true]
  unfold writtenAttributes attributesOf at written
  cases own : attributesAt labels id (labels.graph.node id).transform with
  | error fault =>
      rw [own] at written
      cases written
  | ok listed =>
      rw [own] at written
      cases written
      rfl

/-- The elements of what is below a node, child by child. -/
def partsBelow (labels : Labels) (id : NodeId) : Except Malformed (List (List Element)) :=
  (labels.graph.below id).mapM fun child => elementsOf labels child.val

/-- A removed node gives its children's elements, a bone a handle, and any other node its own. -/
theorem elementsOf_eq
    (labels : Labels)
    (id : NodeId) :
    elementsOf labels id =
      if labels.graph.isRemoved id then (partsBelow labels id).map List.flatten
      else if (labels.graph.node id).kind.isBone then .ok [boneElement labels id]
      else
        (writtenAttributes labels id).bind fun attributes =>
          ((partsBelow labels id).map List.flatten).map fun children =>
            [elementAround labels id attributes children] := by
  rw [elementsOf]
  rfl

/-- There is nothing below a node without children. -/
theorem partsBelow_of_no_children
    {labels : Labels}
    {id : NodeId}
    (none : labels.graph.children id = []) :
    partsBelow labels id = .ok [] := by
  rw [partsBelow, SceneGraph.below_of_no_children none]
  rfl

/-- The element of a node has the heading of the node before those inside it, whether it closes
itself or not. -/
theorem headings_elementAround
    {labels : Labels}
    {id : NodeId}
    {parts : List (List Element)}
    (done : partsBelow labels id = .ok parts)
    (attributes : List WrittenAttribute) :
    (elementAround labels id attributes parts.flatten).headings =
      ⟨tagAt labels id, attributes⟩ :: headingsOf parts.flatten := by
  rw [elementAround]
  split
  next none =>
    rw [partsBelow_of_no_children (List.isEmpty_iff.mp none)] at done
    cases done
    rfl
  next => rfl

/-- What elements are made of: a node that is removed leaves its place to what is below it, a bone
is its handle, and any other node is an element around what is below it. -/
inductive Makes (labels : Labels) (id : NodeId) : List Element → Prop
  | opened
      (removed : labels.graph.isRemoved id = true)
      {parts : List (List Element)}
      (done : partsBelow labels id = .ok parts) :
      Makes labels id parts.flatten
  | handle
      (present : labels.graph.isRemoved id = false)
      (bone : (labels.graph.node id).kind.isBone = true) :
      Makes labels id [boneElement labels id]
  | element
      (present : labels.graph.isRemoved id = false)
      (other : (labels.graph.node id).kind.isBone = false)
      {attributes : List WrittenAttribute}
      (printed : writtenAttributes labels id = .ok attributes)
      {parts : List (List Element)}
      (done : partsBelow labels id = .ok parts) :
      Makes labels id [elementAround labels id attributes parts.flatten]

/-- The elements that are computed for a node are made as described. -/
theorem makes_of_elementsOf
    {labels : Labels}
    {id : NodeId}
    {elements : List Element}
    (written : elementsOf labels id = .ok elements) :
    Makes labels id elements := by
  rw [elementsOf_eq] at written
  cases removed : labels.graph.isRemoved id with
  | true =>
      rw [removed, if_pos rfl] at written
      cases done : partsBelow labels id with
      | error fault =>
          rw [done] at written
          cases written
      | ok parts =>
          rw [done] at written
          cases written
          exact Makes.opened removed done
  | false =>
      rw [removed, if_neg Bool.false_ne_true] at written
      cases bone : (labels.graph.node id).kind.isBone with
      | true =>
          rw [bone, if_pos rfl] at written
          cases written
          exact Makes.handle removed bone
      | false =>
          rw [bone, if_neg Bool.false_ne_true] at written
          cases printed : writtenAttributes labels id with
          | error fault =>
              rw [printed] at written
              cases written
          | ok attributes =>
              cases done : partsBelow labels id with
              | error fault =>
                  rw [printed, done] at written
                  cases written
              | ok parts =>
                  rw [printed, done] at written
                  cases written
                  exact Makes.element removed bone printed done

/-- Why a node has no elements: its own attributes cannot be written, or something below it that
would be written cannot. -/
inductive Stops (labels : Labels) (id : NodeId) (fault : Malformed) : Prop
  | own
      (other : (labels.graph.node id).kind.isBone = false)
      (failed : writtenAttributes labels id = .error fault)
  | below
      (entered :
        labels.graph.isRemoved id = true ∨ (labels.graph.node id).kind.isBone = false)
      (failed : partsBelow labels id = .error fault)

/-- A fault comes from a node in the subtree that has to be written. -/
theorem stops_of_elementsOf
    {labels : Labels}
    {id : NodeId}
    {fault : Malformed}
    (failed : elementsOf labels id = .error fault) :
    Stops labels id fault := by
  rw [elementsOf_eq] at failed
  cases removed : labels.graph.isRemoved id with
  | true =>
      rw [removed, if_pos rfl] at failed
      cases done : partsBelow labels id with
      | error reason =>
          rw [done] at failed
          cases failed
          exact Stops.below (.inl removed) done
      | ok parts =>
          rw [done] at failed
          cases failed
  | false =>
      rw [removed, if_neg Bool.false_ne_true] at failed
      cases bone : (labels.graph.node id).kind.isBone with
      | true =>
          rw [bone, if_pos rfl] at failed
          cases failed
      | false =>
          rw [bone, if_neg Bool.false_ne_true] at failed
          cases printed : writtenAttributes labels id with
          | error reason =>
              rw [printed] at failed
              cases failed
              exact Stops.own bone printed
          | ok attributes =>
              cases done : partsBelow labels id with
              | error reason =>
                  rw [printed, done] at failed
                  cases failed
                  exact Stops.below (.inr bone) done
              | ok parts =>
                  rw [printed, done] at failed
                  cases failed

/-- Where bones stay a removed node is no bone. -/
theorem not_bone_of_removed
    {graph : SceneGraph}
    {id : NodeId}
    (bonesStay :
      ∀ lower, graph.Reaches id lower → (graph.node lower).kind.isBone = true →
        graph.isRemoved lower = false)
    (removed : graph.isRemoved id = true) :
    (graph.node id).kind.isBone = false := by
  rw [← Bool.not_eq_true]
  intro bone
  rw [bonesStay id (SceneGraph.Reaches.refl id) bone] at removed
  cases removed

/-- The elements that stand for a node have one heading for each node that is written at or below
it, in the order of the traversal cut at bones. -/
theorem elementsOf_headings
    {labels : Labels}
    (linked : labels.graph.Linked)
    {id : NodeId}
    (bonesStay :
      ∀ lower, labels.graph.Reaches id lower → (labels.graph.node lower).kind.isBone = true →
        labels.graph.isRemoved lower = false)
    {elements : List Element}
    (written : elementsOf labels id = .ok elements) :
    List.Forall₂
      (fun node heading =>
        headingAt labels node (labels.graph.node node).transform = .ok heading)
      ((downToBones labels.graph id).filter fun node => !labels.graph.isRemoved node)
      (headingsOf elements) := by
  induction id using linked.childrenFirst generalizing elements with
  | step id ih =>
      have inside :
          ∀ parts : List (List Element), partsBelow labels id = .ok parts →
            List.Forall₂
              (fun node heading =>
                headingAt labels node (labels.graph.node node).transform = .ok heading)
              (((labels.graph.below id).flatMap fun child =>
                downToBones labels.graph child.val).filter
                  fun node => !labels.graph.isRemoved node)
              (headingsOf parts.flatten) := by
        intro parts done
        rw [List.filter_flatMap, headingsOf_flatten]
        refine flatMap_of_mapM (fun child listed part => ?_) done
        have member : child.val ∈ labels.graph.children id := by
          rw [← linked.below_val id]
          exact List.mem_map.mpr ⟨child, listed, rfl⟩
        exact ih child.val member fun lower reaches =>
          bonesStay lower ((SceneGraph.Reaches.child member).trans reaches)
      rw [downToBones]
      cases makes_of_elementsOf written with
      | opened removed done =>
          rw [List.filter_cons_of_neg (by simp [removed]), not_bone_of_removed bonesStay removed,
            if_neg Bool.false_ne_true]
          exact inside _ done
      | handle present bone =>
          rw [List.filter_cons_of_pos (by simp [present]), bone, if_pos rfl]
          refine List.Forall₂.cons ?_ List.Forall₂.nil
          rw [headingAt, bone]
          rfl
      | element present other printed done =>
          rw [List.filter_cons_of_pos (by simp [present]), other, if_neg Bool.false_ne_true]
          rw [headingsOf, headings_elementAround done, headingsOf, List.append_nil]
          refine List.Forall₂.cons ?_ (inside _ done)
          exact headingAt_of_writtenAttributes other printed

/-- A commit leaves the heading of a node at a given place alone. -/
theorem headingAt_of_index
    {labels other : Labels}
    (redrawn : Labels.Redrawn labels other)
    (index : other.index = labels.index)
    (id : NodeId)
    (transform : Transform) :
    headingAt other id transform = headingAt labels id transform := by
  have tag : tagAt other id = tagAt labels id := by
    rw [tagAt, tagAt, redrawn.sharedPair?_of_index index, redrawn.kind]
  have name : nameAttributes other id = nameAttributes labels id := by
    simp only [nameAttributes, redrawn.names, redrawn.options, redrawn.isRelevant]
  simp only [headingAt, redrawn.kind, redrawn.nodeExpression,
    redrawn.attributesAt_of_index index, tag, name]

end SceneMarkup.Markup

namespace SceneMarkup.Component

open Scene Markup Pruning

/-- A conversion that succeeds wrote the elements of the tree that its plan leads to. -/
theorem convert_spec
    {fileName : String}
    {graph : SceneGraph}
    {options : Options}
    {text : String}
    (converted : (convert fileName graph options).result = .ok text) :
    ∃ decided elements,
      (plan (Labels.ofGraph graph (InstanceIndex.analyze graph options) options)).result =
          .ok decided ∧
        (convert fileName graph options).graph = commit graph decided ∧
        elementsOf
            (Labels.ofGraph (commit graph decided) (InstanceIndex.analyze graph options) options)
            SceneGraph.root = .ok elements ∧
        text =
          Source.text
            ⟨Labels.ofGraph (commit graph decided) (InstanceIndex.analyze graph options) options,
              fileName, elementsText bodyDepth elements⟩ := by
  unfold convert at converted ⊢
  simp only at converted ⊢
  cases found :
      (plan (Labels.ofGraph graph (InstanceIndex.analyze graph options) options)).result with
  | error fault =>
      rw [found] at converted
      cases converted
  | ok decided =>
      rw [found] at converted
      simp only [moduleText, emit] at converted
      cases written :
          elementsOf
            (Labels.ofGraph (commit graph decided) (InstanceIndex.analyze graph options) options)
            SceneGraph.root with
      | error fault =>
          rw [written] at converted
          cases converted
      | ok elements =>
          rw [written] at converted
          cases converted
          exact ⟨decided, elements, rfl, rfl, written, rfl⟩

section Pruned

variable {labels : Labels} {final : State} {settled : NodeId → Prop}

/-- Nothing is removed that the root reaches, but for a root that is a group.  Scenes as loaded are
intact, and conversions leave them so. -/
structure Intact (graph : SceneGraph) : Prop where
  tidy : Tidy graph
  root :
    graph.isRemoved SceneGraph.root = true → (graph.node SceneGraph.root).kind.isGroup = true

/-- A scene in which nothing was removed is intact. -/
theorem intact_of_untouched
    {graph : SceneGraph}
    (untouched : graph.Untouched) :
    Intact graph where
  tidy := tidy_of_untouched untouched
  root := by
    intro removed
    rw [untouched] at removed
    cases removed

/-- The tree that a plan leads to misses groups that may go. -/
theorem disposable_of_isRemoved
    (linked : labels.graph.Linked)
    (sound : Sound labels settled final)
    {id : NodeId}
    (present : labels.graph.isRemoved id = false)
    (removed : (finalTree labels final).isRemoved id = true) :
    isDisposable labels id = true := by
  rw [isRemoved_finalTree linked sound, present, Bool.false_or] at removed
  exact (sound.node id).disposable removed

/-- What is removed in the tree that a plan leads to is a group. -/
theorem isGroup_of_isRemoved
    (linked : labels.graph.Linked)
    (intact : Intact labels.graph)
    (sound : Sound labels settled final)
    {id : NodeId}
    (reached : labels.graph.Reaches SceneGraph.root id)
    (removed : (finalTree labels final).isRemoved id = true) :
    (labels.graph.node id).kind.isGroup = true := by
  cases before : labels.graph.isRemoved id with
  | false =>
      have disposable := disposable_of_isRemoved linked sound before removed
      exact (isDisposable_iff.mp disposable).2.1
  | true =>
      by_cases atRoot : id = SceneGraph.root
      · exact atRoot ▸ intact.root (atRoot ▸ before)
      · rw [intact.tidy id reached atRoot] at before
        cases before

/-- Pruning changes the kind of no node. -/
theorem kind_finalTree
    (linked : labels.graph.Linked)
    (id : NodeId) :
    ((finalTree labels final).node id).kind = (labels.graph.node id).kind :=
  congrArg (·.kind) (Labels.looks_commit linked (planOf labels.graph final) id)

/-- What loses its place when a plan is committed is a group. -/
theorem isGroup_of_not_stays
    (linked : labels.graph.Linked)
    (tidy : Tidy labels.graph)
    (sound : Sound labels settled final)
    {id : NodeId}
    (reached : labels.graph.Reaches SceneGraph.root id)
    (lost : (finalTree labels final).stays id = false) :
    (labels.graph.node id).kind.isGroup = true := by
  simp only [SceneGraph.stays, Bool.or_eq_false_iff, Bool.not_eq_false', beq_eq_false_iff_ne]
    at lost
  have disposable := disposable_of_isRemoved linked sound (tidy id reached lost.2) lost.1
  exact (isDisposable_iff.mp disposable).2.1

/-- A survivor with no bone above it after a commit had none above it before. -/
theorem no_bone_above_of_finalTree
    (linked : labels.graph.Linked)
    (tidy : Tidy labels.graph)
    (sound : Sound labels settled final)
    {id : NodeId}
    (reached : labels.graph.Reaches SceneGraph.root id)
    (stays : (finalTree labels final).stays id = true)
    (free : ∀ upper, (finalTree labels final).Reaches upper id → upper ≠ id →
      ((finalTree labels final).node upper).kind.isBone = false) :
    ∀ upper, labels.graph.Reaches upper id → upper ≠ id →
      (labels.graph.node upper).kind.isBone = false := by
  intro upper reaches differ
  by_contra bone
  rw [Bool.not_eq_false] at bone
  have sameStays : (finalTree labels final).stays = (finalMarks labels final).stays :=
    stays_commit _ _
  have upperReached := linked.reached_above reached reaches
  have upperStays : (finalTree labels final).stays upper = true := by
    rw [← Bool.not_eq_false]
    intro lost
    have group := isGroup_of_not_stays linked tidy sound upperReached lost
    rw [not_bone_of_group group] at bone
    cases bone
  have notRoot : id ≠ SceneGraph.root := by
    rintro rfl
    exact differ (linked.eq_root_of_reaches reaches)
  have unmarked : (finalMarks labels final).isRemoved id = false := by
    rw [sameStays] at stays
    simpa [SceneGraph.stays, notRoot] using stays
  have still := (reaches_commit_iff linked _ upperReached (sameStays ▸ upperStays)).mpr
    (.inr ⟨reaches, unmarked⟩)
  have notBone := free upper still differ
  rw [kind_finalTree linked, bone] at notBone
  cases notBone

/-- A node with no bone above it before a commit has none above it afterwards. -/
theorem no_bone_above_finalTree
    (linked : labels.graph.Linked)
    {id : NodeId}
    (reached : (finalTree labels final).Reaches SceneGraph.root id)
    (free : ∀ upper, labels.graph.Reaches upper id → upper ≠ id →
      (labels.graph.node upper).kind.isBone = false) :
    ∀ upper, (finalTree labels final).Reaches upper id → upper ≠ id →
      ((finalTree labels final).node upper).kind.isBone = false := by
  intro upper reaches differ
  have treeLinked : (finalTree labels final).Linked := linked_commit linked _
  obtain ⟨upperReached, upperStays⟩ :=
    reached_finalTree linked (treeLinked.reached_above reached reaches)
  rw [kind_finalTree linked]
  rcases (reaches_commit_iff linked _ upperReached upperStays).mp reaches with
    same | ⟨before, _⟩
  · exact absurd same differ
  · exact free upper before differ

/-- What is visible after a commit is what was visible before and keeps its place. -/
theorem visible_finalTree
    (linked : labels.graph.Linked)
    (tidy : Tidy labels.graph)
    (sound : Sound labels settled final) :
    visible (finalTree labels final) =
      (visible labels.graph).filter (finalTree labels final).stays := by
  have treeLinked : (finalTree labels final).Linked := linked_commit linked _
  have traversal :
      (finalTree labels final).traverse SceneGraph.root =
        (labels.graph.traverse SceneGraph.root).filter (finalTree labels final).stays :=
    traverse_commit linked _
  rw [visible, visible, traversal, List.filter_filter, List.filter_filter]
  refine List.filter_congr fun id listed => ?_
  cases stays : (finalTree labels final).stays id with
  | false => simp
  | true =>
      have before := linked.mem_traverse.mp listed
      have after : (finalTree labels final).Reaches SceneGraph.root id := by
        rw [← treeLinked.mem_traverse, traversal, List.mem_filter]
        exact ⟨listed, stays⟩
      rw [Bool.and_true, Bool.true_and, Bool.eq_iff_iff, outsideSkeleton_iff treeLinked,
        outsideSkeleton_iff linked]
      exact ⟨no_bone_above_of_finalTree linked tidy sound before stays,
        no_bone_above_finalTree linked after⟩

/-- The elements of the tree that a plan leads to have a heading for each survivor that was
visible, in the old order. -/
theorem headings_finalTree
    (linked : labels.graph.Linked)
    (intact : Intact labels.graph)
    (sound : Sound labels settled final)
    {other : Labels}
    (redrawn : Labels.Redrawn labels other)
    (index : other.index = labels.index)
    (tree : other.graph = finalTree labels final)
    {elements : List Element}
    (written : elementsOf other SceneGraph.root = .ok elements) :
    List.Forall₂
      (fun id heading => headingAt labels id (other.graph.node id).transform = .ok heading)
      ((visible labels.graph).filter fun id => !other.graph.isRemoved id)
      (headingsOf elements) := by
  have otherLinked : other.graph.Linked := by
    rw [tree]
    exact linked_commit linked _
  have bonesStay :
      ∀ id, other.graph.Reaches SceneGraph.root id → (other.graph.node id).kind.isBone = true →
        other.graph.isRemoved id = false := by
    intro id reached bone
    rw [redrawn.kind] at bone
    rw [tree] at reached ⊢
    rw [← Bool.not_eq_true]
    intro removed
    have before := (reached_finalTree linked reached).1
    have group := isGroup_of_isRemoved linked intact sound before removed
    rw [not_bone_of_group group] at bone
    cases bone
  have survivors :
      (visible other.graph).filter (fun id => !other.graph.isRemoved id) =
        (visible labels.graph).filter fun id => !other.graph.isRemoved id := by
    rw [tree, visible_finalTree linked intact.tidy sound, List.filter_filter]
    refine List.filter_congr fun id _ => ?_
    cases removed : (finalTree labels final).isRemoved id with
    | true => rfl
    | false => simp [SceneGraph.stays, removed]
  have headings := elementsOf_headings otherLinked bonesStay written
  rw [downToBones_root otherLinked, survivors] at headings
  refine headings.imp fun id heading own => ?_
  rw [← headingAt_of_index redrawn index]
  exact own

end Pruned

section Conversions

variable {fileName : String} {graph : SceneGraph} {options : Options} {text : String}
variable {final : State} {elements : List Element} {id : NodeId}

/-- The module of a converted scene before it is written, with the elements of its markup. -/
def sourceOf
    (fileName : String)
    (graph : SceneGraph)
    (options : Options)
    (elements : List Element) :
    Source where
  labels :=
    Labels.ofGraph (convert fileName graph options).graph (InstanceIndex.analyze graph options)
      options
  fileName := fileName
  body := elementsText bodyDepth elements

/-- A conversion has written the elements of the tree that a sound state leads to. -/
structure Rendered
    (fileName : String)
    (graph : SceneGraph)
    (options : Options)
    (text : String)
    (final : State)
    (elements : List Element) :
    Prop where
  sound :
    Sound (Labels.ofGraph graph (InstanceIndex.analyze graph options) options)
      (· ∈ graph.innermostFirst SceneGraph.root) final
  tree :
    (convert fileName graph options).graph =
      finalTree (Labels.ofGraph graph (InstanceIndex.analyze graph options) options) final
  written : elementsOf (sourceOf fileName graph options elements).labels SceneGraph.root = .ok elements
  text : text = (sourceOf fileName graph options elements).text

/-- Every conversion that succeeds has come to its text in this way. -/
theorem exists_rendered
    (linked : graph.Linked)
    (converted : (convert fileName graph options).result = .ok text) :
    ∃ final elements, Rendered fileName graph options text final elements := by
  obtain ⟨decided, elements, found, tree, written, shape⟩ := convert_spec converted
  have labelsLinked :
      (Labels.ofGraph graph (InstanceIndex.analyze graph options) options).graph.Linked := linked
  obtain ⟨final, rfl, _, sound⟩ := plan_spec labelsLinked found
  rw [← tree] at written shape
  exact ⟨final, elements, sound, tree, written, shape⟩

namespace Rendered

/-- A conversion changes place, links and marks of nodes only. -/
theorem redrawn
    (rendered : Rendered fileName graph options text final elements)
    (linked : graph.Linked) :
    Labels.Redrawn (Labels.ofGraph graph (InstanceIndex.analyze graph options) options)
      (sourceOf fileName graph options elements).labels := by
  rw [sourceOf, rendered.tree]
  exact Labels.redrawn_commit linked _ _ _ options

/-- A conversion leaves the clips alone. -/
theorem clips
    (rendered : Rendered fileName graph options text final elements) :
    (convert fileName graph options).graph.clips = graph.clips := by
  rw [rendered.tree]
  exact congrArg (·.clips) (commit_eq graph _)

/-- A conversion leaves a tree. -/
theorem linked
    (rendered : Rendered fileName graph options text final elements)
    (linked : graph.Linked) :
    (convert fileName graph options).graph.Linked := by
  rw [rendered.tree]
  exact linked_commit linked _

/-- The elements head the visible nodes that were not removed, in their order. -/
theorem headings
    (rendered : Rendered fileName graph options text final elements)
    (linked : graph.Linked)
    (intact : Intact graph) :
    let labels := Labels.ofGraph graph (InstanceIndex.analyze graph options) options
    let pruned := (convert fileName graph options).graph
    List.Forall₂
      (fun id heading => headingAt labels id (pruned.node id).transform = .ok heading)
      ((visible graph).filter fun id => !pruned.isRemoved id)
      (headingsOf elements) :=
  headings_finalTree linked intact rendered.sound (rendered.redrawn linked) rfl rendered.tree
    rendered.written

/-- The visible nodes that were removed are groups. -/
theorem group
    (rendered : Rendered fileName graph options text final elements)
    (linked : graph.Linked)
    (intact : Intact graph)
    (seen : id ∈ visible graph)
    (lost : (!(convert fileName graph options).graph.isRemoved id) = false) :
    (graph.node id).kind.isGroup = true := by
  rw [Bool.not_eq_false', rendered.tree] at lost
  exact isGroup_of_isRemoved linked intact rendered.sound
    (linked.mem_traverse.mp (List.mem_filter.mp seen).1) lost

/-- What was visible and was not removed is still visible. -/
theorem still_visible
    (rendered : Rendered fileName graph options text final elements)
    (linked : graph.Linked)
    (intact : Intact graph)
    (seen : id ∈ visible graph)
    (present : (convert fileName graph options).graph.isRemoved id = false) :
    id ∈ visible (convert fileName graph options).graph := by
  rw [rendered.tree] at present ⊢
  rw [visible_finalTree linked intact.tidy rendered.sound, List.mem_filter, SceneGraph.stays, present]
  exact ⟨seen, rfl⟩

/-- Where nothing was removed before only disposable nodes are removed. -/
theorem disposable
    (rendered : Rendered fileName graph options text final elements)
    (linked : graph.Linked)
    (untouched : graph.Untouched)
    (removed : (convert fileName graph options).graph.isRemoved id = true) :
    isDisposable (Labels.ofGraph graph (InstanceIndex.analyze graph options) options) id = true := by
  rw [rendered.tree] at removed
  exact disposable_of_isRemoved linked rendered.sound (untouched id) removed

end Rendered

end Conversions

end SceneMarkup.Component
