import SceneMarkup.Decimal.Notation
import SceneMarkup.Decimal.Rounding
import SceneMarkup.Scene.Graph

namespace SceneMarkup.Component

open Scene

/-!
# Outlines

An outline shows the tree before pruning, one line a node: class, name, rounded
transform and material.
-/

/-- A vector of rounded numbers between brackets. -/
def outlineVector (v : Vector) (precision : UInt32) : String :=
  let number (x : Float) : String := Decimal.diagnostic.text (Decimal.roundTo x precision)
  "[" ++ number v.x ++ ", " ++ number v.y ++ ", " ++ number v.z ++ "]"

/-- The line of one node. -/
def outlineLine (graph : SceneGraph) (id : NodeId) (depth : Nat) (precision : UInt32) : String :=
  let node := graph.node id
  let material :=
    match node.material with
    | some material => (graph.material material).name
    | none => ""
  String.ofList (List.replicate (2 * depth) ' ') ++ node.kind.typeName ++ " " ++ node.name
    ++ " pos: " ++ outlineVector node.transform.position precision
    ++ " scale: " ++ outlineVector node.transform.scale precision
    ++ " rot: " ++ outlineVector node.transform.rotation precision
    ++ " mat: " ++ material ++ "\n"

/-- The lines of a node and everything below it. -/
def outline (graph : SceneGraph) (precision : UInt32) (id : NodeId) (depth : Nat) : String :=
  outlineLine graph id depth precision
    ++ String.join ((graph.below id).map fun child => outline graph precision child.val (depth + 1))
termination_by graph.size - id
decreasing_by exact child.closer

end SceneMarkup.Component
