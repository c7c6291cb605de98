import SceneMarkup.Proofs.Declarations

namespace SceneMarkup.Text

theorem numbered_ne_empty
    {base : String}
    (spelled : base ≠ "")
    (separator : String)
    (attempt : Nat) :
    numbered separator base attempt ≠ "" := by
  unfold numbered
  split
  · exact spelled
  · intro empty
    rw [String.append_eq_empty_iff, String.append_eq_empty_iff] at empty
    exact spelled empty.1.1

end SceneMarkup.Text

namespace SceneMarkup.Scene

/-!
# Nodes that clips drive are found by name

A made-up name is searched among the names that are not taken, and is taken from
then on: made-up names are different from each other and from all names of the
scene.  A driven node is never removed, so its element is written, and it carries
the name that every lookup gives.
-/

section MadeUp

variable {graph : SceneGraph} {used : List String} {ids : List NodeId}

/-- Each of the nodes gets a name, in order. -/
theorem keys_makeUpNames
    (graph : SceneGraph)
    (used : List String)
    (ids : List NodeId) :
    (makeUpNames graph used ids).map (·.1) = ids := by
  induction ids generalizing used with
  | nil => rfl
  | cons id rest ih => rw [makeUpNames, List.map_cons, ih]

/-- No name that is made up is empty. -/
theorem ne_empty_of_makeUpNames
    {entry : NodeId × String}
    (listed : entry ∈ makeUpNames graph used ids) :
    entry.2 ≠ "" := by
  induction ids generalizing used with
  | nil => cases listed
  | cons id rest ih =>
      rw [makeUpNames] at listed
      rcases List.mem_cons.mp listed with rfl | later
      · obtain ⟨attempt, same, _⟩ :=
          Text.firstFree_spec (Text.numbered_injective "_" (graph.baseName id)) used
        rw [same]
        refine Text.numbered_ne_empty (fun empty => ?_) "_" attempt
        rw [SceneGraph.baseName, String.append_eq_empty_iff, String.append_eq_empty_iff] at empty
        exact absurd empty.1.2 (by decide)
      · exact ih later

/-- Names are made up for the driven nodes that have none. -/
theorem mem_unnamedTargets
    {id : NodeId} :
    id ∈ graph.unnamedTargets ↔
      id < graph.size ∧ id ∈ graph.targets ∧ (graph.node id).name = "" := by
  simp only [SceneGraph.unnamedTargets, SceneGraph.ids, List.mem_filter, List.mem_range,
    Bool.and_eq_true, List.contains_eq_mem, decide_eq_true_eq, String.isEmpty_iff]

namespace Labels

/-- A driven node without a name is called by its made-up name. -/
theorem mem_madeUp
    {id : NodeId}
    (unnamed : id ∈ graph.unnamedTargets)
    (index : InstanceIndex)
    (options : Options) :
    (id, (ofGraph graph index options).name id) ∈
      makeUpNames graph graph.usedNames graph.unnamedTargets := by
  cases found : (makeUpNames graph graph.usedNames graph.unnamedTargets).lookup id with
  | none =>
      rw [← keys_makeUpNames graph graph.usedNames graph.unnamedTargets] at unnamed
      obtain ⟨entry, listed, rfl⟩ := List.mem_map.mp unnamed
      have missed := List.lookup_eq_none_iff.mp found entry listed
      rw [bne_self_eq_false] at missed
      cases missed
  | some made =>
      obtain ⟨before, after, split, _⟩ := List.lookup_eq_some_iff.mp found
      have called : (ofGraph graph index options).name id = made := by
        rw [name, ofGraph, found]
      rw [called, split]
      exact List.mem_append_right _ List.mem_cons_self

end Labels

end MadeUp

end SceneMarkup.Scene

namespace SceneMarkup.Component

open Scene Markup Pruning

/-- The values of an element's name attributes. -/
def namesOf (heading : Heading) : List AttributeValue :=
  (heading.attributes.filter fun entry => entry.key == "name").map (·.value)

end SceneMarkup.Component
