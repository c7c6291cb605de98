import SceneMarkup.Loading.Blueprint
import SceneMarkup.Report
import SceneMarkup.Scene.Graph

namespace SceneMarkup.Loading

open Scene (SceneGraph NodeId Clip)

/-!
# Assembly

Blueprints get their places in the arena of a scene graph, parents before
children; clips then refer to the stand-ins of the nodes that they drive.
-/

/-- A graph under assembly, and where the nodes of the asset have their stand-ins. -/
structure Assembled where
  graph : SceneGraph
  /-- The latest stand-in of a node comes first. -/
  standIns : List (Nat × NodeId) := []

namespace Assembled

/-- Where the stand-in of a node is. -/
def standIn? (assembled : Assembled) (index : Nat) : Option NodeId :=
  (assembled.standIns.find? fun entry => entry.1 == index).map (·.2)

mutual

/-- Place an object and everything below it under a parent. -/
def place (assembled : Assembled) (parent : NodeId) : Blueprint → Assembled
  | .object node standsFor children =>
      let id := assembled.graph.size
      let standIns := standsFor.elim assembled.standIns fun index =>
        (index, id) :: assembled.standIns
      placeAll ⟨assembled.graph.add parent node, standIns⟩ id children

/-- Place objects one after another under a parent. -/
def placeAll (assembled : Assembled) (parent : NodeId) : List Blueprint → Assembled
  | [] => assembled
  | first :: rest => placeAll (place assembled parent first) parent rest

end

end Assembled

/-- What a clip is called. -/
def clipName (index : Nat) (animation : Gltf.Animation) : String :=
  animation.name.getD ("animation_" ++ toString index)

/-- The clip of an animation: its channels drive stand-ins, each counted once. -/
def clipOf (assembled : Assembled) (index : Nat) (animation : Gltf.Animation) : Clip :=
  (animation.channels.filterMap fun channel => assembled.standIn? channel.node).foldl
    Clip.drive { name := clipName index animation }

/-- The report of a channel whose node is not in the scene. -/
def strayReport (name : String) (node : Nat) : Report :=
  .warning ("animation [" ++ name ++ "] targets node [" ++ toString node
    ++ "] outside of the scene. Channel ignored.")

/-- The reports of all channels of an animation whose nodes are not in the scene. -/
def strayReports (assembled : Assembled) (index : Nat) (animation : Gltf.Animation) :
    List Report :=
  (animation.channels.filter fun channel => (assembled.standIn? channel.node).isNone).map
    fun channel => strayReport (clipName index animation) channel.node

/-- The animations of an asset with their places. -/
def numberedAnimations (source : Source) : List (Nat × Gltf.Animation) :=
  source.document.animations.toList.zipIdx.map fun numbered => (numbered.2, numbered.1)

/-- Claim the name of a scene, if it has one. -/
def claimSceneName (scene : Gltf.Scene) : Building String :=
  match scene.name with
  | some name => claimName name
  | none => pure ""

/-- The name of a scene and the blueprints of its nodes. -/
def sceneBlueprints (source : Source) (scene : Gltf.Scene) :
    Building (String × List Blueprint) := do
  let name ← claimSceneName scene
  return (name, ← scene.nodes.mapM (blueprintOf source source.document.nodes.size))

/-- The scene graph of a scene, and reports of what was passed over. -/
def assemble (source : Source) (scene : Gltf.Scene) : SceneGraph × List Report :=
  let ((name, blueprints), registry) := (sceneBlueprints source scene).run {}
  let empty := (SceneGraph.ofRoot name).modify SceneGraph.root fun root =>
    { root with userData := extrasMembers scene.extras }
  let assembled := Assembled.placeAll ⟨empty, []⟩ SceneGraph.root blueprints
  let animations := numberedAnimations source
  let extras := extrasMembers source.document.assetExtras
  let graph : SceneGraph :=
    { assembled.graph with
      geometries := (registry.geometries.map (·.2)).toArray
      materials := (registry.materials.map (·.2)).toArray
      clips := animations.map fun numbered => clipOf assembled numbered.1 numbered.2
      extras := if extras.isEmpty then none else some extras }
  (graph, animations.flatMap fun numbered => strayReports assembled numbered.1 numbered.2)

end SceneMarkup.Loading
