import SceneMarkup.Markup.Element
import SceneMarkup.Markup.NodeAttributes

namespace SceneMarkup.Markup

open Scene

/-!
# Elements of a scene

Every node in the tree becomes an element around the elements of its children.
A node without children and the handle of a bone close themselves, and a removed
node leaves its children in its place.
-/

/-- The value of a name attribute: a text, or a JSON string when it holds a quotation mark. -/
def nameValue (name : String) : AttributeValue :=
  if name.toList.contains '"' then .expression (Json.quotedText name) else .text name

/-- The name attribute, for nodes that must be found by name or when all names are kept. -/
def nameAttributes (labels : Labels) (id : NodeId) : List WrittenAttribute :=
  let name := labels.name id
  if (labels.options.keepNames || labels.isRelevant id) && !name.isEmpty then
    [⟨"name", nameValue name⟩]
  else []

/-- The tag of a node: the instance that it is drawn through, or the tag of its class. -/
def tagAt (labels : Labels) (id : NodeId) : String :=
  match labels.sharedPair? id with
  | some pair => "instances." ++ pair.name
  | none => tagOf (labels.graph.node id).kind

/-- The handle of a bone. -/
def boneElement (labels : Labels) (id : NodeId) : Element :=
  .void "primitive" [⟨"object", .expression (labels.nodeExpression id)⟩]

/-- The attributes of a node as they stand in its element. -/
def writtenAttributes (labels : Labels) (id : NodeId) : Except Malformed (List WrittenAttribute) :=
  (attributesOf labels id).map fun attributes =>
    nameAttributes labels id
      ++ attributes.map fun entry => ⟨entry.key.name, entry.value⟩

/-- The element of a node around the elements of its children: it closes itself if the node has no
children, whether or not these have elements. -/
def elementAround
    (labels : Labels)
    (id : NodeId)
    (attributes : List WrittenAttribute)
    (inside : List Element) :
    Element :=
  if (labels.graph.children id).isEmpty then .void (tagAt labels id) attributes
  else .element (tagAt labels id) attributes inside

/-- The elements that stand for `id` and everything below it. -/
def elementsOf (labels : Labels) (id : NodeId) : Except Malformed (List Element) :=
  let inside : Unit → Except Malformed (List Element) := fun _ =>
    ((labels.graph.below id).mapM fun child => elementsOf labels child.val).map List.flatten
  if labels.graph.isRemoved id then inside ()
  else if (labels.graph.node id).kind.isBone then .ok [boneElement labels id]
  else
    (writtenAttributes labels id).bind fun attributes =>
      (inside ()).map fun children => [elementAround labels id attributes children]
termination_by labels.graph.size - id
decreasing_by exact child.closer

/-- The markup of `id` and everything below it, its outermost elements at `depth`. -/
def emit (labels : Labels) (id : NodeId) (depth : Nat) : Except Malformed String :=
  (elementsOf labels id).map (elementsText depth)

end SceneMarkup.Markup
