import SceneMarkup.Proofs.Balance
import SceneMarkup.Proofs.Contents
import SceneMarkup.Proofs.FirstMeshes
import SceneMarkup.Proofs.Instances

namespace SceneMarkup.Markup

open Scene

/-!
# What is written can be read

The heading of every node is legible: its tag and its keys are names, its
expressions are balanced, and its texts hold no quotation mark.
-/

section Nodes

/-- A property of a node, as an expression. -/
theorem balanced_property
    {context : NodeContext}
    (reaches : Balanced context.expression.toList)
    {property : String}
    (listed : property ∈ NodeContext.ownProperties) :
    Balanced (context.expression ++ property).toList := by
  have plain : ∀ property ∈ NodeContext.ownProperties, Plain property.toList := by
    decide
  rw [String.toList_append]
  exact balanced_append reaches (balanced_of_plain (plain property listed))

/-- What an attribute of a node tells can be read back. -/
theorem legible_of_tells
    {context : NodeContext}
    (reaches : Balanced context.expression.toList)
    {value : AttributeValue}
    (told : context.Tells value) :
    value.Legible := by
  cases told with
  | flag => trivial
  | text unquoted => exact unquoted
  | constant constant => exact balanced_of_constant constant
  | property _ listed => exact balanced_property reaches listed
  | arguments _ count =>
      exact balanced_tripleText (balanced_property reaches (by decide))
        (balanced_property reaches (by decide))
        (balanced_of_constant (constant_of_signs (signs_toString count)))
  | material _ _ => exact balanced_access (by decide) _

/-- The keys of attributes are names. -/
theorem isName_key
    (key : AttributeKey) :
    IsName key.name := by
  cases key <;> decide

variable {labels : Labels} {id : NodeId}

/-- The expression of a node is balanced, whatever it is called. -/
theorem balanced_nodeExpression
    (labels : Labels)
    (id : NodeId) :
    Balanced (labels.nodeExpression id).toList :=
  balanced_access (by decide) (labels.name id)

/-- The name attribute is legible. -/
theorem legible_name
    {entry : WrittenAttribute}
    (member : entry ∈ nameAttributes labels id) :
    entry.Legible := by
  rw [eq_of_mem_nameAttributes member]
  refine ⟨show IsName "name" by decide, ?_⟩
  show (nameValue (labels.name id)).Legible
  unfold nameValue
  split
  next => exact balanced_of_constant (constant_quotedText _)
  next unquoted => simpa [AttributeValue.Legible] using unquoted

end Nodes

section Tags

/-- A word is a name. -/
theorem isName_of_isWord
    {name : String}
    (isWord : IsWord name.toList) :
    IsName name :=
  ⟨isWord.filled, fun character member =>
    nameCharacter_of_continuesIdentifier (isWord.continues character member)⟩

theorem isName_append
    {first second : String}
    (begins : IsName first)
    (ends : ∀ character ∈ second.toList, isNameCharacter character = true) :
    IsName (first ++ second) := by
  obtain ⟨filled, letters⟩ := begins
  unfold IsName
  rw [String.toList_append]
  exact ⟨List.append_ne_nil_of_left_ne_nil filled _, List.forall_mem_append.mpr ⟨letters, ends⟩⟩

/-- The tag of a kind is a name. -/
theorem isName_tagOf
    (kind : NodeKind) :
    IsName (tagOf kind) := by
  have all : ∀ name ∈ typeNames, IsName (tagOfTypeName name) := by
    decide
  exact all _ (typeName_mem kind)

/-- The names of components are words. -/
theorem isWord_of_isComponentName
    {name : String}
    (spelled : IsComponentName name) :
    IsWord name.toList := by
  obtain ⟨first, letters, digits, spells, capital, alpha, numeric⟩ := spelled
  rw [spells]
  refine ⟨List.cons_ne_nil _ _, List.forall_mem_cons.mpr
    ⟨continues_of_isAlpha ?_, List.forall_mem_append.mpr ⟨?_, ?_⟩⟩⟩
  · exact Bool.or_eq_true_iff.mpr (.inl capital)
  · exact fun letter member => continues_of_isAlpha (alpha letter member)
  · exact fun digit member => continues_of_isDigit (numeric digit member)

/-- The names of instances are made of letters and digits. -/
theorem isWord_analyze
    {graph : SceneGraph}
    {options : Options}
    {pair : SharedPair}
    (listed : pair ∈ (InstanceIndex.analyze graph options).pairs) :
    IsWord pair.name.toList := by
  obtain ⟨nodeName, attempt, same⟩ := (firstCome_analyze graph options).spelled pair listed
  rw [same]
  exact isWord_of_isComponentName (isComponentName_numbered nodeName attempt)

/-- The names of entries are names of tags. -/
theorem isName_analyze
    {graph : SceneGraph}
    {options : Options}
    {pair : SharedPair}
    (listed : pair ∈ (InstanceIndex.analyze graph options).pairs) :
    IsName pair.name :=
  isName_of_isWord (isWord_analyze listed)

/-- A node is drawn through an entry of the index, and only if the settings ask for instances. -/
theorem listed_of_sharedPair
    {labels : Labels}
    {id : NodeId}
    {pair : SharedPair}
    (shared : labels.sharedPair? id = some pair) :
    labels.options.instancing = true ∧ pair ∈ labels.index.pairs := by
  unfold Labels.sharedPair? at shared
  simp only at shared
  split at shared
  next plain _ _ =>
    refine ⟨(Bool.and_eq_true_iff.mp plain).1, ?_⟩
    exact InstanceIndex.mem_of_get? (Option.filter_eq_some_iff.mp shared).1
  next => cases shared

/-- The tag of a node is a name. -/
theorem isName_tagAt
    {labels : Labels}
    (named : ∀ pair ∈ labels.index.pairs, IsName pair.name)
    (id : NodeId) :
    IsName (tagAt labels id) := by
  unfold tagAt
  split
  next pair shared =>
    exact isName_append (by decide) (named pair (listed_of_sharedPair shared).2).2
  next => exact isName_tagOf _

/-- The heading of every node can be read back. -/
theorem legible_headingAt
    {labels : Labels}
    (named : ∀ pair ∈ labels.index.pairs, IsName pair.name)
    {id : NodeId}
    {transform : Transform}
    {heading : Heading}
    (own : headingAt labels id transform = .ok heading) :
    heading.Legible := by
  cases heads_of_headingAt own with
  | handle bone =>
      refine ⟨show IsName "primitive" by decide, List.forall_mem_singleton.mpr ⟨?_, ?_⟩⟩
      · exact show IsName "object" by decide
      · exact balanced_nodeExpression labels id
  | element other printed =>
      refine ⟨isName_tagAt named id, List.forall_mem_append.mpr ⟨?_, ?_⟩⟩
      · exact fun entry member => legible_name member
      · intro entry member
        obtain ⟨source, listed, rfl⟩ := List.mem_map.mp member
        have reaches : Balanced (NodeContext.ofLabels labels id).expression.toList :=
          balanced_nodeExpression labels id
        exact ⟨isName_key source.key,
          legible_of_tells reaches (tells_attributes printed source listed)⟩

end Tags

end SceneMarkup.Markup
