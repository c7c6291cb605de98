import SceneMarkup.Component.Module
import SceneMarkup.Component.Outline
import SceneMarkup.Markup.Emission
import SceneMarkup.Pruning.Plan

namespace SceneMarkup.Component

open Scene Markup

/-!
# Conversion of a scene

Pairs are counted on the scene as loaded, all removals are decided before any
is carried out, and the markup is written from the pruned scene.
-/

/-- The outcome of a conversion: the module or a fault, the scene as it is left, the reports. -/
structure Conversion where
  result : Except Malformed String
  graph : SceneGraph
  reports : List Report

/-- How deep the markup stands in the component. -/
def bodyDepth : Nat := 3

/-- The module of a pruned scene. -/
def moduleText (labels : Labels) (fileName : String) : Except Malformed String :=
  (emit labels SceneGraph.root bodyDepth).map fun body => Source.text ⟨labels, fileName, body⟩

/-- Convert a scene into a module that loads `fileName`; the scene is pruned on the way. -/
def convert (fileName : String) (graph : SceneGraph) (options : Options) : Conversion :=
  let opening :=
    if options.debug then
      [Report.info ("input tree\n" ++ outline graph options.precision SceneGraph.root 0)]
    else []
  let index := InstanceIndex.analyze graph options
  let planning := Pruning.plan (Labels.ofGraph graph index options)
  match planning.result with
  | .error fault => ⟨.error fault, graph, opening ++ planning.reports⟩
  | .ok plan =>
      let pruned := Pruning.commit graph plan
      ⟨moduleText (Labels.ofGraph pruned index options) fileName, pruned,
        opening ++ planning.reports⟩

end SceneMarkup.Component
