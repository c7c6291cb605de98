import SceneMarkup.Proofs.PathDestinations

namespace SceneMarkup.Files

/-!
# What stands where paths lead

Writing, moving and removing a file change what stands at one place, and making
directories changes nothing that stands.  Paths that lead elsewhere show what
they showed.
-/

instance : DecidableEq Entry
  | .directory, .directory => .isTrue rfl
  | .directory, .file _ => .isFalse nofun
  | .file _, .directory => .isFalse nofun
  | .file bytes, .file others =>
      @decidable_of_iff _ (bytes = others) ⟨congrArg _, Entry.file.inj⟩
        (ByteArray.instDecidableEq bytes others)

namespace FileTree

/-- What stands where a path leads. -/
def content? (tree : FileTree) (path : Path) : Option Entry :=
  (tree.lookup path).toOption

/-- The content of a path is the entry at the place that it leads to. -/
theorem content?_eq_some_iff
    {tree : FileTree}
    {path : Path}
    {entry : Entry} :
    tree.content? path = some entry ↔
      ∃ place, tree.locate path = .ok place ∧ tree.at? place = some entry := by
  unfold content? lookup
  cases leads : tree.locate path with
  | error error =>
      constructor
      · exact fun found => by cases found
      · rintro ⟨_, found, _⟩
        cases found
  | ok place =>
      simp only [bind, Except.bind]
      cases standing : tree.at? place with
      | none =>
          constructor
          · exact fun found => by cases found
          · rintro ⟨_, found, stands⟩
            cases found
            rw [standing] at stands
            cases stands
      | some other =>
          constructor
          · intro found
            cases found
            exact ⟨place, rfl, standing⟩
          · rintro ⟨_, found, stands⟩
            cases found
            rw [standing] at stands
            cases stands
            rfl

/-- What can be read at a path are the bytes of its content. -/
theorem toOption_read
    (tree : FileTree)
    (path : Path) :
    (tree.read path).toOption = (tree.content? path).bind Entry.bytes? := by
  unfold read content?
  cases tree.lookup path with
  | error => rfl
  | ok entry => cases entry <;> rfl

/-- A path has a file as its content exactly if the file can be read. -/
theorem content?_eq_file_iff
    {tree : FileTree}
    {path : Path}
    {bytes : ByteArray} :
    tree.content? path = some (.file bytes) ↔ tree.read path = .ok bytes := by
  unfold read content?
  cases tree.lookup path with
  | error =>
      constructor <;>
        · intro found
          cases found
  | ok entry =>
      cases entry with
      | directory =>
          constructor <;>
            · intro found
              cases found
      | file own =>
          constructor <;>
            · intro found
              cases found
              rfl

/-- Trees that differ at most in the file at one place. -/
structure DiffersAt (place : Place) (before after : FileTree) : Prop where
  home : after.home = before.home
  others : ∀ other, other ≠ place → after.at? other = before.at? other
  directories :
    ∀ other, after.at? other = some .directory ↔ before.at? other = some .directory

namespace DiffersAt

variable {before middle after : FileTree} {place : Place}

theorem refl (place : Place) (tree : FileTree) : DiffersAt place tree tree :=
  ⟨rfl, fun _ _ => rfl, fun _ => Iff.rfl⟩

theorem trans
    (first : DiffersAt place before middle)
    (second : DiffersAt place middle after) :
    DiffersAt place before after :=
  ⟨second.home.trans first.home,
    fun other differs => (second.others other differs).trans (first.others other differs),
    fun other => (second.directories other).trans (first.directories other)⟩

/-- Writing a file changes the tree at its own place only. -/
theorem put
    {tree : FileTree}
    (plain : tree.isDirectoryAt place = false)
    (bytes : ByteArray) :
    DiffersAt place tree (tree.put place (.file bytes)) := by
  have inside := ne_nil_of_not_directory plain
  refine ⟨rfl, fun other differs => by rw [at?_put inside, if_neg differs], fun other => ?_⟩
  rw [at?_put inside]
  by_cases same : other = place
  · rw [if_pos same, same, ← isDirectoryAt_iff, plain]
    constructor <;> exact fun found => by cases found
  · rw [if_neg same]

/-- Erasing a file changes the tree at its own place only. -/
theorem erase
    {tree : FileTree}
    {bytes : ByteArray}
    (standing : tree.at? place = some (.file bytes)) :
    DiffersAt place tree (tree.erase place) := by
  have inside := ne_nil_of_file standing
  refine ⟨rfl, fun other differs => by rw [at?_erase inside, if_neg differs], fun other => ?_⟩
  rw [at?_erase inside]
  by_cases same : other = place
  · rw [if_pos same, same, standing]
    constructor <;> exact fun found => by cases found
  · rw [if_neg same]

/-- Trees that differ in a file have the same directories. -/
theorem grows
    (differs : DiffersAt place before after) :
    Grows before after :=
  ⟨differs.home, fun other => (differs.directories other).mpr⟩

theorem shrinks
    (differs : DiffersAt place before after) :
    Grows after before :=
  ⟨differs.home.symm, fun other => (differs.directories other).mp⟩

/-- Paths that lead elsewhere show what they showed. -/
theorem content?_eq
    (differs : DiffersAt place before after)
    {path : Path}
    (elsewhere : before.destination path ≠ place) :
    after.content? path = before.content? path := by
  apply Option.ext
  intro entry
  rw [content?_eq_some_iff, content?_eq_some_iff]
  constructor
  · rintro ⟨spot, leads, standing⟩
    have same := differs.shrinks.locate leads
    rw [differs.others spot (locate_eq_destination same ▸ elsewhere)] at standing
    exact ⟨spot, same, standing⟩
  · rintro ⟨spot, leads, standing⟩
    rw [← differs.others spot (locate_eq_destination leads ▸ elsewhere)] at standing
    exact ⟨spot, differs.grows.locate leads, standing⟩

end DiffersAt

/-- A tree in which everything that stood still stands. -/
structure Extends (before after : FileTree) : Prop where
  home : after.home = before.home
  entries : ∀ place entry, before.at? place = some entry → after.at? place = some entry

namespace Extends

variable {before middle after : FileTree}

theorem refl (tree : FileTree) : Extends tree tree :=
  ⟨rfl, fun _ _ standing => standing⟩

theorem trans
    (first : Extends before middle)
    (second : Extends middle after) :
    Extends before after :=
  ⟨second.home.trans first.home,
    fun place entry standing => second.entries place entry (first.entries place entry standing)⟩

theorem grows
    (extended : Extends before after) :
    Grows before after :=
  ⟨extended.home, fun place => extended.entries place .directory⟩

theorem put
    {tree : FileTree}
    {place : Place}
    {entry : Entry}
    (free : tree.at? place = none) :
    Extends tree (tree.put place entry) := by
  have inside : place ≠ [] := by
    rintro rfl
    rw [at?, if_pos rfl] at free
    cases free
  refine ⟨rfl, fun other own standing => ?_⟩
  rw [at?_put inside, if_neg]
  · exact standing
  · rintro rfl
    rw [free] at standing
    cases standing

/-- What a path shows it still shows. -/
theorem content?
    (extended : Extends before after)
    {path : Path}
    {entry : Entry}
    (shown : before.content? path = some entry) :
    after.content? path = some entry := by
  obtain ⟨place, leads, standing⟩ := content?_eq_some_iff.mp shown
  exact content?_eq_some_iff.mpr
    ⟨place, extended.grows.locate leads, extended.entries place entry standing⟩

end Extends

/-- Creating a directory changes nothing that stood before. -/
theorem createDirectory_extends
    {tree after : FileTree}
    {path : Path}
    (made : tree.createDirectory path = .ok after) :
    Extends tree after := by
  obtain ⟨⟨parent, last⟩, _, made⟩ := exists_of_bind made
  obtain ⟨place, _, made⟩ := exists_of_bind made
  cases free : tree.at? place with
  | some entry =>
      rw [free] at made
      cases made
  | none =>
      rw [free] at made
      cases made
      exact Extends.put free

/-- Creating directories one by one changes nothing that stood before. -/
theorem createChain_extends
    {tree after : FileTree}
    {paths : List Path}
    (made : tree.createChain paths = .ok after) :
    Extends tree after := by
  induction paths generalizing after with
  | nil => cases made
  | cons path above ih =>
      rw [createChain] at made
      split at made
      · cases made
        exact Extends.refl tree
      split at made
      next done =>
        cases made
        exact createDirectory_extends done
      next =>
        obtain ⟨middle, higher, made⟩ := exists_of_bind made
        refine (ih higher).trans ?_
        split at made
        next done =>
          cases made
          exact createDirectory_extends done
        next =>
          split at made
          · cases made
            exact Extends.refl _
          · cases made
      next =>
        split at made
        · cases made
          exact Extends.refl tree
        · cases made

/-- Making directories changes nothing that stands. -/
theorem createDirectories_extends
    {tree after : FileTree}
    {path : Path}
    (made : tree.createDirectories path = .ok after) :
    Extends tree after :=
  createChain_extends made

end FileTree

end SceneMarkup.Files
