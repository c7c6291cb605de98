import SceneMarkup.Report
import SceneMarkup.Scene.Graph

namespace SceneMarkup.Scene

/-!
# Merging equal geometries and materials

Entries of a table with the same fingerprint stand for the same content.  One pass
over a table finds the first entry of each class and redirects every other entry of
the class to it; then the references of the nodes are redirected.  Entries without a
fingerprint take no part, and materials merge only within their family.
-/

/-- How many table entries were found to repeat an earlier one. -/
structure MergeReport where
  geometries : Nat
  materials : Nat
  deriving Repr, DecidableEq

/-- Nothing was merged. -/
def MergeReport.isEmpty (report : MergeReport) : Bool :=
  report.geometries == 0 && report.materials == 0

/-- What is known of a material without its name. -/
def Material.content (material : Material) : Option (MaterialKind × Fingerprint) :=
  material.fingerprint.map fun fingerprint => (material.kind, fingerprint)

/-- What a pass over a table knows of the classes of equal content. -/
structure Classes (κ : Type) where
  /-- The first entry of every class met so far. -/
  firsts : List (κ × Nat) := []
  /-- For every other entry met so far the first one of its class. -/
  redirects : List (Nat × Nat) := []
  /-- How many entries are redirected. -/
  merged : Nat := 0

namespace Classes

variable {κ : Type} [DecidableEq κ]

/-- Look at the entry at `index`: it is the first of its class or is redirected to the first.
Without known content it takes no part. -/
def visit (classes : Classes κ) (index : Nat) : Option κ → Classes κ
  | none => classes
  | some content =>
      let found := classes.firsts.lookup content
      let firsts := if found.isSome then classes.firsts else (content, index) :: classes.firsts
      let keep := found.getD index
      if keep = index then { classes with firsts := firsts }
      else
        { firsts := firsts
          redirects := (index, keep) :: classes.redirects
          merged := classes.merged + 1 }

/-- One pass over a table, from its first entry to its last. -/
def ofTable (content : α → Option κ) (table : Array α) : Classes κ :=
  table.toList.zipIdx.foldl (fun classes entry => classes.visit entry.2 (content entry.1)) {}

/-- The entry that stands for the one at `index`. -/
def redirect (classes : Classes κ) (index : Nat) : Nat :=
  (classes.redirects.lookup index).getD index

end Classes

/-- Point one node at the entries that stand for its geometry and its material. -/
def Node.redirected
    (node : Node)
    (geometries : Classes Fingerprint)
    (materials : Classes (MaterialKind × Fingerprint)) :
    Node :=
  { node with
    geometry := node.geometry.map geometries.redirect
    material := node.material.map materials.redirect }

namespace SceneGraph

/-- The classes of geometries with the same fingerprint. -/
def geometryClasses (graph : SceneGraph) : Classes Fingerprint :=
  .ofTable Geometry.fingerprint graph.geometries

/-- The classes of materials of one family with the same fingerprint. -/
def materialClasses (graph : SceneGraph) : Classes (MaterialKind × Fingerprint) :=
  .ofTable Material.content graph.materials

/-- Go over both tables, then point every node at the first entries of the classes. -/
def merge (graph : SceneGraph) : SceneGraph :=
  let geometries := graph.geometryClasses
  let materials := graph.materialClasses
  { graph with nodes := graph.nodes.map fun node => node.redirected geometries materials }

/-- What the passes over the tables redirect. -/
def mergeReport (graph : SceneGraph) : MergeReport where
  geometries := graph.geometryClasses.merged
  materials := graph.materialClasses.merged

end SceneGraph

/-- The record of a merge. -/
def MergeReport.record (report : MergeReport) : Report :=
  .info ("dedup merged " ++ toString report.geometries ++ " geometries and "
    ++ toString report.materials ++ " materials.")

end SceneMarkup.Scene
