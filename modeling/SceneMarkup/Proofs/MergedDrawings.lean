import SceneMarkup.Loading.Load
import SceneMarkup.Proofs.Ingredients
import SceneMarkup.Proofs.LoopSteps
import SceneMarkup.Proofs.Registering
import SceneMarkup.Proofs.Representatives

namespace SceneMarkup.Loading

open Files (FileTree Path)
open Gltf (Document Primitive Accessor Sparse Mode MorphTarget Semantic View)
open Scene (SceneGraph NodeId Geometry GeometryId)

/-!
# Merged geometries

A loaded scene that is merged afterwards gives two primitives one geometry when
their keys are one or when their fingerprints are equal.  Where the key tells
the targets of a primitive and the bytes tell the form of the data, both mean
that the primitives draw the same.  A sample shows that neither condition can be
left out: its pairs of primitives are all merged, and only the twins among them
draw the same.
-/

section Placing

/-- The geometries that the nodes of a graph carry. -/
def carriedBy (graph : SceneGraph) : List GeometryId :=
  (graph.nodes.map (·.geometry)).toList.flatMap Option.toList

/-- What a node carries is carried by the graph. -/
theorem mem_carriedBy
    {graph : SceneGraph}
    {id : NodeId}
    {geometry : GeometryId}
    (carries : (graph.node id).geometry = some geometry) :
    geometry ∈ carriedBy graph := by
  by_cases inside : id < graph.size
  · have listed : graph.node id ∈ graph.nodes := by
      rw [SceneGraph.node, Array.getD_eq_getD_getElem?, Array.getElem?_eq_getElem inside]
      exact Array.getElem_mem inside
    refine List.mem_flatMap.mpr ⟨some geometry, ?_, by simp⟩
    rw [Array.mem_toList_iff, ← carries]
    exact Array.mem_map_of_mem listed
  · rw [SceneGraph.node_eq_default inside] at carries
    cases carries

/-- A change that keeps the geometry of a node keeps all geometries. -/
theorem carriedBy_modify
    (graph : SceneGraph)
    (id : NodeId)
    {change : Scene.Node → Scene.Node}
    (keeps : ∀ node, (change node).geometry = node.geometry) :
    carriedBy (graph.modify id change) = carriedBy graph := by
  have rows :
      (graph.nodes.modify id change).map (·.geometry) = graph.nodes.map (·.geometry) := by
    apply Array.ext_getElem?
    intro place
    simp only [Array.getElem?_map, Array.getElem?_modify]
    split
    · simp [Option.map_map, Function.comp_def, keeps]
    · rfl
  rw [carriedBy, SceneGraph.modify, rows, carriedBy]

/-- A new node brings its geometry behind the others. -/
theorem carriedBy_add
    (graph : SceneGraph)
    (parent : NodeId)
    (node : Scene.Node) :
    carriedBy (graph.add parent node) = carriedBy graph ++ node.geometry.toList := by
  let linked := graph.modify parent fun holder =>
    { holder with children := holder.children ++ [graph.size] }
  have kept : carriedBy linked = carriedBy graph := carriedBy_modify graph parent fun _ => rfl
  rw [← kept]
  simp [carriedBy, SceneGraph.add, linked]

mutual

/-- A blueprint that is placed brings its geometries behind the others. -/
theorem carriedBy_place
    (assembled : Assembled)
    (parent : NodeId)
    (blueprint : Blueprint) :
    carriedBy (assembled.place parent blueprint).graph =
      carriedBy assembled.graph ++ blueprint.geometries := by
  cases blueprint with
  | object node standsFor children =>
    rw [Assembled.place, carriedBy_placeAll, carriedBy_add, List.append_assoc,
      Blueprint.geometries]

/-- Blueprints that are placed bring their geometries behind the others. -/
theorem carriedBy_placeAll
    (assembled : Assembled)
    (parent : NodeId)
    (blueprints : List Blueprint) :
    carriedBy (assembled.placeAll parent blueprints).graph =
      carriedBy assembled.graph ++ Blueprint.geometriesOfAll blueprints := by
  cases blueprints with
  | nil => rw [Assembled.placeAll, Blueprint.geometriesOfAll, List.append_nil]
  | cons first rest =>
    rw [Assembled.placeAll, carriedBy_placeAll, carriedBy_place, List.append_assoc,
      Blueprint.geometriesOfAll]

end

end Placing

section Assembling

variable {source : Source} {scene : Gltf.Scene}

/-- The registry that a scene is assembled from. -/
def registryOf (source : Source) (scene : Gltf.Scene) : Registry :=
  ((sceneBlueprints source scene).run {}).2

/-- The graph of a scene. -/
def graphOf (source : Source) (scene : Gltf.Scene) : SceneGraph :=
  (assemble source scene).1

/-- The geometries of the graph are those that were registered, in order. -/
theorem geometries_graphOf :
    (graphOf source scene).geometries =
      ((registryOf source scene).geometries.map (·.2)).toArray :=
  rfl

/-- The registry of a scene keeps what it lists. -/
theorem kept_registryOf : Kept source (registryOf source scene) :=
  (yields_sceneBlueprints source scene).1.kept

/-- Every geometry in the graph was built for a primitive. -/
theorem covered_graphOf :
    Covered source (registryOf source scene) (carriedBy (graphOf source scene)) := by
  let bare := SceneGraph.ofRoot ((sceneBlueprints source scene).run {}).1.1
  let empty := bare.modify SceneGraph.root fun root =>
    { root with userData := extrasMembers scene.extras }
  have same : carriedBy empty = carriedBy bare := by
    apply carriedBy_modify
    intro node
    rfl
  have nothing : carriedBy empty = [] := by
    rw [same]
    simp [carriedBy, bare, SceneGraph.ofRoot]
  have carried : carriedBy (graphOf source scene) =
      Blueprint.geometriesOfAll ((sceneBlueprints source scene).run {}).1.2 := by
    rw [← List.nil_append (Blueprint.geometriesOfAll _), ← nothing]
    exact carriedBy_placeAll ⟨empty, []⟩ SceneGraph.root _
  rw [carried]
  exact (yields_sceneBlueprints source scene).2

end Assembling

section Loaded

/-- A computation that gives a value goes through a value of its first part. -/
theorem length_contentsOf
    {tree : FileTree}
    {directory : Path}
    {buffers : List Gltf.Buffer}
    {spare : Option ByteArray}
    {contents : List ByteArray}
    (done : Gltf.contentsOf tree directory spare buffers = .ok contents) :
    contents.length = buffers.length := by
  induction buffers generalizing spare contents with
  | nil =>
    cases done
    rfl
  | cons buffer rest ih =>
    rw [Gltf.contentsOf] at done
    obtain ⟨⟨content, left⟩, _, later⟩ := exists_of_bind done
    obtain ⟨others, found, together⟩ := exists_of_bind later
    cases together
    rw [List.length_cons, List.length_cons, ih found]

/-- Bytes are read as an asset only if its document is valid. -/
theorem isValid_of_ofBytes
    {bytes : ByteArray}
    {asset : Gltf.Asset}
    (done : Gltf.Asset.ofBytes bytes = .ok asset) :
    asset.document.isValid = true := by
  have ⟨text, read⟩ : ∃ text, Document.ofBytes text = .ok asset.document := by
    rw [Gltf.Asset.ofBytes] at done
    split at done
    · cases done
    · split at done
      all_goals
        obtain ⟨⟨text, found⟩, _, done⟩ := exists_of_bind done
        obtain ⟨document, read, done⟩ := exists_of_bind done
        cases done
        exact ⟨text, read⟩
  rw [Document.ofBytes] at read
  split at read
  · cases read
  · split at read
    next valid =>
      cases read
      exact valid
    · cases read

/-- A file is read as an asset only if its document is valid. -/
theorem isValid_of_readAsset
    {tree : FileTree}
    {path : Path}
    {asset : Gltf.Asset}
    (done : readAsset tree path = .ok asset) :
    asset.document.isValid = true := by
  rw [readAsset] at done
  split at done
  · cases done
  next entry _ =>
    replace done := ok_of_mapError done
    cases found : entry.bytes? with
    | none =>
      rw [found] at done
      cases done
    | some bytes =>
      rw [found] at done
      exact isValid_of_ofBytes done

/-- With fingerprints the bytes of every buffer are loaded. -/
theorem contents_of_sourceOf
    {tree : FileTree}
    {path : Path}
    {asset : Gltf.Asset}
    {source : Source}
    (done : sourceOf tree path asset true = .ok source) :
    ∃ contents, source = ⟨asset.document, some contents⟩ ∧
      contents.size = asset.document.buffers.size := by
  rw [sourceOf, if_pos rfl] at done
  cases read : (asset.contents tree (directoryOf path)) with
  | error fault =>
    rw [read] at done
    cases done
  | ok contents =>
    rw [read] at done
    cases done
    refine ⟨contents, rfl, ?_⟩
    rw [Gltf.Asset.contents] at read
    cases listed : Gltf.contentsOf tree (directoryOf path) asset.bytes
        asset.document.buffers.toList with
    | error fault =>
      rw [listed] at read
      cases read
    | ok parts =>
      rw [listed] at read
      cases read
      rw [List.size_toArray, length_contentsOf listed, Array.length_toList]

/-- What is loaded with its contents is the graph of a complete document. -/
theorem complete_of_load
    {tree : FileTree}
    {path : Path}
    {graph : SceneGraph}
    {reports : List Report}
    (done : load tree path true = .ok (graph, reports)) :
    ∃ document contents scene,
      Complete document contents ∧ graph = graphOf ⟨document, some contents⟩ scene := by
  rw [load] at done
  obtain ⟨asset, read, done⟩ := exists_of_bind done
  obtain ⟨source, sourced, done⟩ := exists_of_bind done
  obtain ⟨contents, rfl, buffers⟩ := contents_of_sourceOf sourced
  split at done
  · cases done
  next scene _ =>
    cases done
    exact ⟨asset.document, contents, scene, ⟨isValid_of_readAsset read, buffers⟩, rfl⟩

end Loaded

section Merging

variable {document : Document} {contents : Array ByteArray} {scene : Gltf.Scene}

/-- The geometry of a primitive that is determined by its key has the primitive's fingerprint. -/
theorem geometry_of_builds
    {primitive : Primitive}
    {object : Scene.Node}
    (builds : Builds ⟨document, some contents⟩ (registryOf ⟨document, some contents⟩ scene)
      primitive object)
    (keyed : Keyed document primitive) :
    ∃ geometry, object.geometry = some geometry ∧
      (graphOf ⟨document, some contents⟩ scene).geometries[geometry]? =
        some ⟨some (primitiveFingerprint document contents primitive)⟩ := by
  have kept : Kept ⟨document, some contents⟩ (registryOf ⟨document, some contents⟩ scene) :=
    kept_registryOf
  obtain ⟨_, drawn⟩ := kept.drawn builds
  obtain ⟨entry, found, named⟩ := drawn.listed.getElem?_place
  obtain ⟨other, known, rfl⟩ := kept.geometries entry (List.mem_of_getElem? found)
  have keys : keyOf other = keyOf primitive := named
  have one : primitiveFingerprint document contents other =
      primitiveFingerprint document contents primitive :=
    primitiveFingerprint_of_key keys (keyed other known keys)
  refine ⟨_, drawn.geometry, ?_⟩
  rw [geometries_graphOf, List.getElem?_toArray, List.getElem?_map, found, ← one]
  rfl

/-- Two primitives have one geometry once their scene is merged. -/
def Merged
    (source : Source)
    (scene : Gltf.Scene)
    (first second : Primitive) :
    Prop :=
  ∃ left right,
    Builds source (registryOf source scene) first left ∧
      Builds source (registryOf source scene) second right ∧
      left.geometry.map (graphOf source scene).geometryClasses.redirect =
        right.geometry.map (graphOf source scene).geometryClasses.redirect

/-- Primitives that are merged draw the same: their geometries have one fingerprint. -/
theorem Merged.sameDrawing
    (complete : Complete document contents)
    {first second : Primitive}
    (merged : Merged ⟨document, some contents⟩ scene first second)
    (firstKeyed : Keyed document first)
    (secondKeyed : Keyed document second)
    (comparable : Comparable document contents first second) :
    SameDrawing document contents first second := by
  have kept : Kept ⟨document, some contents⟩ (registryOf ⟨document, some contents⟩ scene) :=
    kept_registryOf
  obtain ⟨left, right, firstBuilds, secondBuilds, same⟩ := merged
  obtain ⟨leftId, leftCarries, leftFound⟩ := geometry_of_builds firstBuilds firstKeyed
  obtain ⟨rightId, rightCarries, rightFound⟩ := geometry_of_builds secondBuilds secondKeyed
  rw [leftCarries, rightCarries, Option.map_some, Option.map_some, Option.some.injEq] at same
  have leftKnown : (graphOf ⟨document, some contents⟩ scene).geometryContent leftId =
      some (primitiveFingerprint document contents first) :=
    Option.bind_eq_some_iff.mpr ⟨_, leftFound, rfl⟩
  have rightKnown : (graphOf ⟨document, some contents⟩ scene).geometryContent rightId =
      some (primitiveFingerprint document contents second) :=
    Option.bind_eq_some_iff.mpr ⟨_, rightFound, rfl⟩
  have fingerprints := Scene.content_eq_of_redirect leftKnown rightKnown same
  exact sameDrawing_of_fingerprint complete (complete.grounded (kept.drawn firstBuilds).1)
    (complete.grounded (kept.drawn secondBuilds).1) comparable fingerprints

/-- Primitives that are merged draw the same, as far as keys and bytes tell what is drawn. -/
theorem merged_geometries_draw_same
    (complete : Complete document contents)
    {first second : Primitive}
    (merged : Merged ⟨document, some contents⟩ scene first second)
    (firstKeyed : Keyed document first)
    (secondKeyed : Keyed document second)
    (comparable : Comparable document contents first second) :
    SameDrawing document contents first second :=
  merged.sameDrawing complete firstKeyed secondKeyed comparable

/--
When an asset has been loaded with its contents, every geometry of a node was built
for a primitive of the document.  If merging gives two nodes one geometry, the two
primitives draw the same, as far as keys and bytes tell what is drawn.
-/
theorem merged_nodes_of_load
    {tree : FileTree}
    {path : Path}
    {graph : SceneGraph}
    {reports : List Report}
    (done : load tree path true = .ok (graph, reports)) :
    ∃ document contents scene,
      Complete document contents ∧ graph = graphOf ⟨document, some contents⟩ scene ∧
        ∀ (upper lower : NodeId) (left right : GeometryId),
          (graph.node upper).geometry = some left →
            (graph.node lower).geometry = some right →
            (graph.merge.node upper).geometry = (graph.merge.node lower).geometry →
            ∃ first second,
              (∃ object,
                Builds ⟨document, some contents⟩
                    (registryOf ⟨document, some contents⟩ scene) first object ∧
                  object.geometry = some left) ∧
                (∃ object,
                  Builds ⟨document, some contents⟩
                      (registryOf ⟨document, some contents⟩ scene) second object ∧
                    object.geometry = some right) ∧
                (Keyed document first → Keyed document second →
                  Comparable document contents first second →
                    SameDrawing document contents first second) := by
  obtain ⟨document, contents, scene, complete, rfl⟩ := complete_of_load done
  refine ⟨document, contents, scene, complete, rfl, ?_⟩
  intro upper lower left right carriesLeft carriesRight same
  have covered : Covered ⟨document, some contents⟩ (registryOf ⟨document, some contents⟩ scene)
      (carriedBy (graphOf ⟨document, some contents⟩ scene)) := covered_graphOf
  obtain ⟨first, object, builds, carries⟩ := covered left (mem_carriedBy carriesLeft)
  obtain ⟨second, other, also, carriesAlso⟩ := covered right (mem_carriedBy carriesRight)
  refine ⟨first, second, ⟨object, builds, carries⟩, ⟨other, also, carriesAlso⟩, ?_⟩
  rw [SceneGraph.node_merge, SceneGraph.node_merge] at same
  have merged : Merged ⟨document, some contents⟩ scene first second := by
    refine ⟨object, other, builds, also, ?_⟩
    rw [carries, carriesAlso, ← carriesLeft, ← carriesRight]
    exact same
  exact merged.sameDrawing complete

end Merging

namespace Sample

/-- Three numbers, the least or the greatest of positions. -/
def bound (number : Int) : Option Json.Value :=
  some (.array (List.replicate 3 (.number (.integer number))))

/-- One vector, in the view at a place. -/
def vector (view : Nat) : Accessor where
  view := some view
  byteOffset := none
  count := 1
  componentType := some .single
  dimensions := some .vector3
  least := bound 0
  greatest := bound 1
  normalized := false
  sparse := none

/-- The vector in the first view, with the one in the view at a place put in its stead. -/
def substituted (view : Nat) : Accessor :=
  { vector 0 with sparse := some ⟨1, ⟨5, 0⟩, some .unsignedShort, ⟨view, 0⟩⟩ }

/-- A vector of whole numbers of two bytes. -/
def whole (type : Gltf.ComponentType) : Accessor :=
  { vector 4 with componentType := some type }

/-- A part of the only buffer. -/
def part (start length : Nat) : View :=
  ⟨0, length, some start, none, none⟩

/-- A shape of positions alone. -/
def shape (index : Nat) : MorphTarget :=
  ⟨some index, none, none⟩

/-- A primitive without indices or material. -/
def primitive
    (mode : Mode)
    (attributes : List (Option Semantic × Nat))
    (targets : List MorphTarget) :
    Primitive :=
  ⟨attributes, none, none, some mode, targets⟩

/-- The same data in two places. -/
def twins : Primitive × Primitive :=
  (primitive .triangles [(some .positions, 0)] [shape 2],
    primitive .triangles [(some .positions, 1)] [shape 2])

/-- The same accessors, and different shapes. -/
def blends : Primitive × Primitive :=
  (primitive .points [(some .positions, 0)] [shape 2],
    primitive .points [(some .positions, 0)] [shape 3])

/-- The same bytes, once with a sign and once without. -/
def codings : Primitive × Primitive :=
  (primitive .lines [(some .positions, 4)] [], primitive .lines [(some .positions, 5)] [])

/-- The same view, and different substitutes. -/
def substitutes : Primitive × Primitive :=
  (primitive .lineLoop [(some .positions, 6)] [], primitive .lineLoop [(some .positions, 7)] [])

/-- The same row of accessors, once for one shape and once for two. -/
def cuts : Primitive × Primitive :=
  (primitive .lineStrip [(some .positions, 0)] [⟨some 2, some 3, none⟩],
    primitive .lineStrip [(some .positions, 1)] [shape 2, shape 3])

/-- The pairs, one after another. -/
def pairs : List (Primitive × Primitive) :=
  [twins, blends, codings, substitutes, cuts]

/-- The primitives of all pairs. -/
def primitives : List Primitive :=
  pairs.flatMap fun both => [both.1, both.2]

/-- A document with one node, which draws all primitives. -/
def document : Document where
  assetExtras := .null
  scene := none
  requiredExtensions := []
  accessors := #[vector 0, vector 1, vector 2, vector 3, whole .short, whole .unsignedShort,
    substituted 2, substituted 3]
  animations := #[]
  buffers := #[⟨56, none⟩]
  views := #[part 0 12, part 12 12, part 24 12, part 36 12, part 48 6, part 54 2]
  cameras := #[]
  images := #[]
  lights := none
  materials := #[]
  meshes := #[⟨none, .null, primitives, none⟩]
  nodes := #[{ Gltf.Node.absent with mesh := some 0 }]
  textureSamplers := #[]
  scenes := #[⟨none, [0], .null⟩]
  skins := #[]
  textures := #[]

/-- Two vectors of zeros, two vectors along an axis, a pair, and a place. -/
def contents : Array ByteArray :=
  let zeros (count : Nat) : List UInt8 := List.replicate count 0
  let one : List UInt8 := [0, 0, 0x80, 0x3f]
  #[(zeros 24 ++ one ++ zeros 12 ++ one ++ zeros 4 ++ [0xff, 0xff, 1] ++ zeros 5).toByteArray]

/-- The document with its contents. -/
def source : Source :=
  ⟨document, some contents⟩

/-- The only scene. -/
def scene : Gltf.Scene :=
  ⟨none, [0], .null⟩

/-- The objects of the only mesh. -/
def objects : List Scene.Node :=
  (Registry.find? (registryOf source scene).meshes 0).getD []

/-- The geometries of the objects once the scene is merged. -/
def merged : List (Option GeometryId) :=
  objects.map fun object =>
    object.geometry.map (graphOf source scene).geometryClasses.redirect

theorem complete : Complete document contents where
  valid := by decide +kernel
  buffers := rfl

/-- Merging leaves one geometry of every pair of twins. -/
theorem merged_eq :
    merged = [some 0, some 0, some 2, some 2, some 3, some 3, some 5, some 5, some 7, some 7] := by
  decide +kernel

/-- Every primitive of the sample is built. -/
theorem builds_objects
    {place : Nat}
    {primitive : Primitive}
    {object : Scene.Node}
    (drawn : primitives[place]? = some primitive)
    (built : objects[place]? = some object) :
    Builds source (registryOf source scene) primitive object := by
  have found : Registry.find? (registryOf source scene).meshes 0 = some objects := by
    have known : (Registry.find? (registryOf source scene).meshes 0).isSome = true := by
      decide
    obtain ⟨built, same⟩ := Option.isSome_iff_exists.mp known
    rw [objects, same, Option.getD_some]
  refine ⟨0, ⟨none, .null, primitives, none⟩, objects, rfl, found, ?_⟩
  apply List.mem_of_getElem?
  exact List.getElem?_zip_eq_some.mpr ⟨drawn, built⟩

/-- Primitives at places with one geometry are merged. -/
theorem merged_of_places
    (first second : Nat)
    {left right : Primitive}
    (leftDrawn : primitives[first]? = some left)
    (rightDrawn : primitives[second]? = some right)
    {geometry : Option GeometryId}
    (leftMerged : merged[first]? = some geometry)
    (rightMerged : merged[second]? = some geometry) :
    Merged source scene left right := by
  rw [merged, List.getElem?_map, Option.map_eq_some_iff] at leftMerged rightMerged
  obtain ⟨leftObject, leftBuilt, leftGeometry⟩ := leftMerged
  obtain ⟨rightObject, rightBuilt, rightGeometry⟩ := rightMerged
  exact ⟨leftObject, rightObject, builds_objects leftDrawn leftBuilt,
    builds_objects rightDrawn rightBuilt, leftGeometry.trans rightGeometry.symm⟩

/-- The primitives of each pair are merged. -/
theorem merged_of_pair
    {both : Primitive × Primitive}
    (member : both ∈ pairs) :
    Merged source scene both.1 both.2 := by
  simp only [pairs, List.mem_cons, List.not_mem_nil, or_false] at member
  rcases member with rfl | rfl | rfl | rfl | rfl
  · exact merged_of_places 0 1 rfl rfl (by rw [merged_eq]; rfl) (by rw [merged_eq]; rfl)
  · exact merged_of_places 2 3 rfl rfl (by rw [merged_eq]; rfl) (by rw [merged_eq]; rfl)
  · exact merged_of_places 4 5 rfl rfl (by rw [merged_eq]; rfl) (by rw [merged_eq]; rfl)
  · exact merged_of_places 6 7 rfl rfl (by rw [merged_eq]; rfl) (by rw [merged_eq]; rfl)
  · exact merged_of_places 8 9 rfl rfl (by rw [merged_eq]; rfl) (by rw [merged_eq]; rfl)

/-- A primitive of the sample whose key no other one has with different targets is keyed. -/
theorem keyed_twin
    {twin : Primitive}
    (alone : ∀ other ∈ primitives, keyOf other = keyOf twin → other.targets = twin.targets) :
    Keyed document twin := by
  rintro other ⟨mesh, member, drawn⟩ keys
  obtain rfl : mesh = ⟨none, .null, primitives, none⟩ := by simpa [document] using member
  exact alone other drawn keys

/-- The twins are told apart by their bytes. -/
theorem comparable_twins : Comparable document contents twins.1 twins.2 where
  attributes meaning left right inFirst inSecond := by
    obtain ⟨_, rfl⟩ : some meaning = some Semantic.positions ∧ left = 0 := by
      simpa [twins, primitive] using inFirst
    obtain ⟨_, rfl⟩ : some meaning = some Semantic.positions ∧ right = 1 := by
      simpa [twins, primitive] using inSecond
    right
    intro left right foundLeft foundRight _ _ _
    cases foundLeft
    cases foundRight
    exact .inr ⟨rfl, rfl, rfl, rfl, fun _ _ => rfl⟩
  indices left right inFirst := by cases inFirst
  targets place left right inFirst inSecond := by
    left
    exact Option.some.inj (inFirst.symm.trans inSecond)
  shapes _ := rfl

/-- Primitives that have nothing but positions draw the same only if their positions are. -/
theorem positions_of_same
    {left right : Primitive}
    {first second : Nat}
    {data : Data}
    (leftOnly : left.attributes = [(some .positions, first)])
    (rightOnly : right.attributes = [(some .positions, second)])
    (found : dataAt document contents first = some data)
    (same : SameDrawing document contents left right) :
    dataAt document contents first = dataAt document contents second := by
  have attached : Attaches document contents left .positions data :=
    ⟨first, by simp [leftOnly], found⟩
  obtain ⟨index, member, holds⟩ := (same.attributes .positions data).mp attached
  obtain rfl : index = second := by simpa [rightOnly] using member
  exact found.trans holds.symm

end Sample

/-- Twins are merged, and they draw the same. -/
theorem merged_geometries_draw_same_twins :
    Complete Sample.document Sample.contents ∧
      Merged ⟨Sample.document, some Sample.contents⟩ Sample.scene Sample.twins.1 Sample.twins.2 ∧
      Keyed Sample.document Sample.twins.1 ∧
      Keyed Sample.document Sample.twins.2 ∧
      Comparable Sample.document Sample.contents Sample.twins.1 Sample.twins.2 ∧
      SameDrawing Sample.document Sample.contents Sample.twins.1 Sample.twins.2 := by
  have merged : Merged Sample.source Sample.scene Sample.twins.1 Sample.twins.2 :=
    Sample.merged_of_pair (by simp [Sample.pairs])
  have first : Keyed Sample.document Sample.twins.1 := Sample.keyed_twin (by decide +kernel)
  have second : Keyed Sample.document Sample.twins.2 := Sample.keyed_twin (by decide +kernel)
  exact ⟨Sample.complete, merged, first, second, Sample.comparable_twins,
    merged_geometries_draw_same Sample.complete merged first second Sample.comparable_twins⟩

/-- A key says nothing of shapes. -/
theorem merged_blends_differ :
    Merged Sample.source Sample.scene Sample.blends.1 Sample.blends.2 ∧
      ¬ SameDrawing Sample.document Sample.contents Sample.blends.1 Sample.blends.2 := by
  refine ⟨Sample.merged_of_pair (by simp [Sample.pairs]), fun same => ?_⟩
  exact absurd same.shapes (by decide +kernel)

/-- Bytes do not tell numbers with a sign from numbers without. -/
theorem merged_codings_differ :
    Merged Sample.source Sample.scene Sample.codings.1 Sample.codings.2 ∧
      ¬ SameDrawing Sample.document Sample.contents Sample.codings.1 Sample.codings.2 := by
  refine ⟨Sample.merged_of_pair (by simp [Sample.pairs]), fun same => ?_⟩
  exact absurd (Sample.positions_of_same rfl rfl rfl same) (by decide)

/-- Substitutes are not looked at. -/
theorem merged_substitutes_differ :
    Merged Sample.source Sample.scene Sample.substitutes.1 Sample.substitutes.2 ∧
      ¬ SameDrawing Sample.document Sample.contents Sample.substitutes.1
        Sample.substitutes.2 := by
  refine ⟨Sample.merged_of_pair (by simp [Sample.pairs]), fun same => ?_⟩
  exact absurd (Sample.positions_of_same rfl rfl rfl same) (by decide +kernel)

/-- A row of accessors does not tell where one shape ends. -/
theorem merged_cuts_differ :
    Merged Sample.source Sample.scene Sample.cuts.1 Sample.cuts.2 ∧
      ¬ SameDrawing Sample.document Sample.contents Sample.cuts.1 Sample.cuts.2 := by
  refine ⟨Sample.merged_of_pair (by simp [Sample.pairs]), fun same => ?_⟩
  exact absurd same.shapes (by decide +kernel)

end SceneMarkup.Loading
