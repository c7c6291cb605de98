import SceneMarkup.Markup.Attribute

namespace SceneMarkup.Markup

/-!
# Elements

An element has a tag and attributes in order.  It closes itself, or it has a
closing tag and elements before that.  It is written over as many lines as it has
tags, each indented by two blanks a level.
-/

/-- An attribute as it stands in an element. -/
structure WrittenAttribute where
  key : String
  value : AttributeValue
  deriving Repr, DecidableEq

/-- An element of the markup. -/
inductive Element
  /-- An element that closes itself. -/
  | void (tag : String) (attributes : List WrittenAttribute)
  /-- An element with a closing tag, be it right behind the opening one. -/
  | element (tag : String) (attributes : List WrittenAttribute) (children : List Element)
  deriving Repr, Inhabited

/-- Two blanks for every level. -/
def indentation (depth : Nat) : String :=
  String.ofList (List.replicate (2 * depth) ' ')

/-- Attributes as written, each after a blank. -/
def attributesText (attributes : List WrittenAttribute) : String :=
  String.join (attributes.map fun entry => " " ++ entry.value.written entry.key)

mutual

/-- The lines of an element at a depth. -/
def Element.text (depth : Nat) : Element → String
  | .void tag attributes =>
      indentation depth ++ "<" ++ tag ++ attributesText attributes ++ " />\n"
  | .element tag attributes children =>
      indentation depth ++ "<" ++ tag ++ attributesText attributes ++ ">\n"
        ++ elementsText (depth + 1) children ++ indentation depth ++ "</" ++ tag ++ ">\n"

/-- The lines of elements that stand side by side. -/
def elementsText (depth : Nat) : List Element → String
  | [] => ""
  | element :: rest => element.text depth ++ elementsText depth rest

end

end SceneMarkup.Markup
