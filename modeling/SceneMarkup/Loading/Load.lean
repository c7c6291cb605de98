import SceneMarkup.Gltf.Contents
import SceneMarkup.Loading.Assembly

namespace SceneMarkup.Loading

open Files (FileTree Path OsError)
open Scene (SceneGraph)

/-!
# Loading an asset
-/

/-- Why an asset gives no scene. -/
inductive LoadError
  /-- There is no such file. -/
  | file (path : Path) (error : OsError)
  /-- The file is no asset. -/
  | asset (path : Path) (fault : Gltf.Fault)
  /-- The asset has no scene. -/
  | noScene (path : Path)
  deriving Repr, DecidableEq

/-- The directory that an asset's own paths start from. -/
def directoryOf (path : Path) : Path :=
  path.parent?.getD ⟨"./"⟩

/-- Read the file of an asset; what stands there has to be a file with an asset. -/
def readAsset (tree : FileTree) (path : Path) : Except LoadError Gltf.Asset :=
  match tree.lookup path with
  | .error error => .error (.file path error)
  | .ok entry =>
      ((entry.bytes?.elim (.error .unreadable) Gltf.Asset.ofBytes).mapError (.asset path))

/-- The asset as the loader sees it; buffers are read only when content counts. -/
def sourceOf (tree : FileTree) (path : Path) (asset : Gltf.Asset) (fingerprint : Bool) :
    Except LoadError Source :=
  if fingerprint then
    ((asset.contents tree (directoryOf path)).mapError (.asset path)).map fun contents =>
      ⟨asset.document, some contents⟩
  else .ok ⟨asset.document, none⟩

/-- The report of a loaded scene. -/
def loadedReport (path : Path) (graph : SceneGraph) : Report :=
  .info ("loaded [" ++ path.text ++ "]. " ++ toString graph.size ++ " nodes, "
    ++ toString graph.clips.length ++ " animations.")

/-- Load the scene that an asset shows. -/
def load (tree : FileTree) (path : Path) (fingerprint : Bool) :
    Except LoadError (SceneGraph × List Report) := do
  let asset ← readAsset tree path
  let source ← sourceOf tree path asset fingerprint
  match asset.document.shownScene? with
  | none => .error (.noScene path)
  | some scene =>
      let (graph, reports) := assemble source scene
      return (graph, reports ++ [loadedReport path graph])

end SceneMarkup.Loading
