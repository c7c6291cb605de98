import SceneMarkup.CommandLine.Footprint
import SceneMarkup.Proofs.Standing
import SceneMarkup.Proofs.WorkOutcomes

namespace SceneMarkup.Gltf

open Files (FileTree Path)

/-!
# What a component is made from

The text of a component depends on the asset, on the files of its buffers when
they are looked at, and on nothing else: trees that show these files the same
give the same text.
-/

section Reading

variable {first second : FileTree} {directory : Path}

/-- A buffer is read alike from trees that agree on its file. -/
theorem readBuffer_congr
    {path : Path}
    (same : second.content? path = first.content? path) :
    readBuffer second path = readBuffer first path := by
  have reads : (second.read path).toOption = (first.read path).toOption := by
    rw [FileTree.toOption_read, FileTree.toOption_read, same]
  unfold readBuffer
  cases own : first.read path <;> cases other : second.read path <;> rw [own, other] at reads <;>
    cases reads <;> rfl

/-- An address gives the same bytes in trees that agree on the file that it leads to. -/
theorem bytesAt_congr
    {text : String}
    (same :
      ∀ path, fileAt? directory text = some path → second.content? path = first.content? path) :
    bytesAt second directory text = bytesAt first directory text := by
  unfold fileAt? at same
  unfold bytesAt
  split
  · rfl
  next found =>
    rw [found] at same
    exact readBuffer_congr (same _ rfl)
  next found =>
    rw [found] at same
    exact readBuffer_congr (same _ rfl)
  · rfl
  · rfl

/-- Buffers have the same contents in trees that agree on all their files. -/
theorem contentsOf_congr
    {buffers : List Buffer}
    (same :
      ∀ buffer ∈ buffers,
        ∀ path,
          buffer.uri.bind (fileAt? directory) = some path →
            second.content? path = first.content? path)
    (spare : Option ByteArray) :
    contentsOf second directory spare buffers = contentsOf first directory spare buffers := by
  induction buffers generalizing spare with
  | nil => rfl
  | cons buffer rest ih =>
      have later := ih fun other member => same other (List.mem_cons_of_mem _ member)
      have own : contentOf second directory spare buffer = contentOf first directory spare buffer := by
        unfold contentOf
        cases address : buffer.uri with
        | none => cases spare <;> rfl
        | some text =>
            have bytes : bytesAt second directory text = bytesAt first directory text :=
              bytesAt_congr fun path leads =>
                same buffer List.mem_cons_self path (by rw [address]; exact leads)
            simp only [bytes]
      unfold contentsOf
      simp only [own, later]

end Reading

end SceneMarkup.Gltf

namespace SceneMarkup.Job

open Files (FileTree OsError Path)
open Filters (Filter FilterTable FilterResult)
open Work

/-- The files that the text of a component is made from. -/
def sources (tree : FileTree) (input : Path) (options : Options) : List Path :=
  input ::
    if options.deduplicate then
      (tree.read input).toOption.elim [] (CommandLine.bufferPaths input)
    else []

/-- Filters that do the same on two trees and write no files. -/
def Blind (filters : FilterTable) (first second : FileTree) : Prop :=
  ∀ name filter,
    filters name = some filter →
      ∀ words text,
        (filter first words text).changes = [] ∧
          filter second words text = filter first words text

section Steps

variable {filters : FilterTable} {first second : FileTree}

/-- A filter that a word finds is in the table. -/
theorem filterAt_mem
    {tree : FileTree}
    {word : String}
    {filter : Filter}
    (found : filterAt filters tree word = .ok filter) :
    ∃ name, filters name = some filter := by
  unfold filterAt at found
  split at found
  · simp only at found
    split at found
    next chosen =>
      cases found
      obtain ⟨name, _, standing⟩ := List.exists_of_findSome?_eq_some chosen
      exact ⟨name, standing⟩
    next => cases found
  · split at found
    next standing =>
      cases found
      exact ⟨word, standing⟩
    next => cases found

/-- Which filter a word names does not depend on the tree. -/
theorem toOption_filterAt
    (filters : FilterTable)
    (first second : FileTree)
    (word : String) :
    (filterAt filters first word).toOption = (filterAt filters second word).toOption := by
  unfold filterAt
  split
  · simp only
    split <;> rfl
  · split <;> rfl

/-- Formatting is alike where the filters cannot tell the trees apart. -/
theorem formatted_alike
    (blind : Blind filters first second)
    (command text : String) :
    Alike first second (formatted filters command text) (formatted filters command text) := by
  unfold formatted
  split
  · exact alike_throw _ _
  next name words _ =>
    split
    · exact alike_throw_bind _ _ _ _
    refine alike_get fun before other own own' => ?_
    simp only [own, own']
    have named := toOption_filterAt filters first second name
    cases found : filterAt filters first name with
    | error =>
        cases other : filterAt filters second name with
        | error => exact alike_throw_bind _ _ _ _
        | ok filter =>
            rw [found, other] at named
            cases named
    | ok filter =>
        obtain ⟨place, standing⟩ := filterAt_mem found
        have runs := blind place filter standing words (Filters.Octets.ofText text)
        cases other : filterAt filters second name with
        | error =>
            rw [found, other] at named
            cases named
        | ok filter =>
            rw [found, other] at named
            cases named
            have quiet : writeChanges [] = pure () := rfl
            simp only [orFail, pure_bind, runs.1, runs.2, quiet]
            split
            · exact alike_bind (alike_report _ _) fun _ => alike_throw_bind _ _ _ _
            · exact alike_orFail rfl

/-- Merging a scene does not look at the tree. -/
theorem mergeScene_alike
    (graph : Scene.SceneGraph)
    (deduplicate : Bool) :
    Alike first second (mergeScene graph deduplicate) (mergeScene graph deduplicate) := by
  unfold mergeScene
  split
  · exact alike_bind (alike_report _ _) fun _ => alike_pure _
  · exact alike_pure _

/-- Writing a component does not look at the tree. -/
theorem writeComponent_alike
    (fileName : String)
    (graph : Scene.SceneGraph)
    (options : Options) :
    Alike first second (writeComponent fileName graph options)
      (writeComponent fileName graph options) := by
  unfold writeComponent
  exact alike_bind (alike_reportAll _ _) fun _ => alike_orFail rfl

/-- An asset has the same contents in trees that agree on the files of its buffers. -/
theorem sourceOf_congr
    {input : Path}
    {bytes : ByteArray}
    {asset : Gltf.Asset}
    (parsed : Gltf.Asset.ofBytes bytes = .ok asset)
    (same :
      ∀ path ∈ CommandLine.bufferPaths input bytes, second.content? path = first.content? path)
    (fingerprint : Bool) :
    Loading.sourceOf second input asset fingerprint =
      Loading.sourceOf first input asset fingerprint := by
  have contents :
      asset.contents second (Loading.directoryOf input) =
        asset.contents first (Loading.directoryOf input) := by
    unfold Gltf.Asset.contents
    rw [Gltf.contentsOf_congr]
    intro buffer member path leads
    refine same path ?_
    rw [CommandLine.bufferPaths, parsed]
    exact List.mem_filterMap.mpr ⟨buffer, member, leads⟩
  rw [Loading.sourceOf, Loading.sourceOf, contents]

/-- An asset is loaded alike from trees that agree on all its files. -/
theorem load_congr
    {input : Path}
    {options : Options}
    (same :
      ∀ source ∈ sources first input options, second.content? source = first.content? source) :
    (Loading.load first input options.deduplicate).toOption =
      (Loading.load second input options.deduplicate).toOption := by
  have shown := same input List.mem_cons_self
  have reads := FileTree.toOption_read first input
  unfold FileTree.content? at shown reads
  unfold Loading.load Loading.readAsset
  cases own : first.lookup input <;> cases other : second.lookup input <;>
    rw [own, other] at shown <;> cases shown
  · rfl
  next entry =>
    rw [own] at reads
    cases entry with
    | directory => rfl
    | file bytes =>
        simp only [Files.Entry.bytes?, Option.elim_some]
        cases parsed : Gltf.Asset.ofBytes bytes with
        | error => rfl
        | ok asset =>
            have sourced :
                Loading.sourceOf second input asset options.deduplicate =
                  Loading.sourceOf first input asset options.deduplicate := by
              cases looked : options.deduplicate with
              | false => rfl
              | true =>
                  refine sourceOf_congr parsed (fun path member => same path ?_) true
                  rw [sources, looked, if_pos rfl, reads]
                  exact List.mem_cons_of_mem _ member
            simp only [Except.mapError]
            show (Loading.sourceOf first input asset options.deduplicate >>= _).toOption =
              (Loading.sourceOf second input asset options.deduplicate >>= _).toOption
            rw [sourced]

/-- Trees that show the sources the same give the same text. -/
theorem componentText_alike
    (blind : Blind filters first second)
    {input : Path}
    {options : Options}
    (same :
      ∀ source ∈ sources first input options, second.content? source = first.content? source) :
    Alike first second (componentText filters input options)
      (componentText filters input options) := by
  unfold componentText
  refine alike_bind (alike_ask ?_) fun bytes => ?_
  · have shown := same input List.mem_cons_self
    unfold FileTree.content? at shown
    unfold byteCount
    cases own : first.lookup input <;> cases other : second.lookup input <;>
      rw [own, other] at shown <;> cases shown <;> rfl
  refine alike_bind (?_ : Alike first second (loadScene _ _) (loadScene _ _)) fun loaded => ?_
  · refine alike_get fun before other own own' => ?_
    rw [own, own']
    exact alike_bind (alike_orFail (load_congr same)) fun _ =>
      alike_bind (alike_reportAll _ _) fun _ => alike_pure _
  refine alike_bind (mergeScene_alike _ _) fun merged => ?_
  refine alike_bind (writeComponent_alike _ _ _) fun text => ?_
  split
  · exact formatted_alike blind _ _
  · exact alike_pure _

end Steps

end SceneMarkup.Job
