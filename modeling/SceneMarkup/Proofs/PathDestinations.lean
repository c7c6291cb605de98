import Mathlib.Data.List.Find
import Mathlib.Data.List.Induction
import Mathlib.Data.String.Basic
import SceneMarkup.Files.FileTree
import SceneMarkup.Proofs.LoopSteps

namespace SceneMarkup.Files

/-!
# Where paths lead

A path leads to the place that its pieces spell, whatever stands on the way; the
tree only says whether the way is open.  Ways stay open as long as directories
stay, and no operation takes a directory away.  So operations are known by the
places that they change.
-/

namespace Path

theorem piecesOf_ne_nil
    (text : List Char) :
    piecesOf text ≠ [] := by
  induction text with
  | nil => exact List.cons_ne_nil _ _
  | cons character rest ih =>
      rw [piecesOf]
      split
      · exact List.cons_ne_nil _ _
      · split <;> exact List.cons_ne_nil _ _

/-- A slash ends a piece, so texts around it have their pieces apart. -/
theorem piecesOf_append
    (before after : List Char) :
    piecesOf (before ++ '/' :: after) = piecesOf before ++ piecesOf after := by
  induction before with
  | nil => simp [piecesOf]
  | cons character rest ih =>
      rw [List.cons_append, piecesOf, piecesOf, ih]
      split
      · rfl
      · cases pieces : piecesOf rest with
        | nil => exact absurd pieces (piecesOf_ne_nil rest)
        | cons first others => rfl

/-- A text without a slash is one piece. -/
theorem piecesOf_of_not_mem
    {text : List Char}
    (whole : '/' ∉ text) :
    piecesOf text = [text] := by
  induction text with
  | nil => rfl
  | cons character rest ih =>
      rw [List.mem_cons, not_or] at whole
      rw [piecesOf, if_neg (Ne.symm whole.1), ih whole.2]

/-- No piece has a slash in it. -/
theorem not_mem_of_piecesOf
    {text piece : List Char}
    (listed : piece ∈ piecesOf text) :
    '/' ∉ piece := by
  induction text generalizing piece with
  | nil =>
      rw [piecesOf, List.mem_singleton] at listed
      rw [listed]
      exact List.not_mem_nil
  | cons character rest ih =>
      rw [piecesOf] at listed
      split at listed
      next =>
        rcases List.mem_cons.mp listed with rfl | later
        · exact List.not_mem_nil
        · exact ih later
      next other =>
        cases pieces : piecesOf rest with
        | nil => exact absurd pieces (piecesOf_ne_nil rest)
        | cons first others =>
            rw [pieces] at listed ih
            rcases List.mem_cons.mp listed with rfl | later
            · rw [List.mem_cons, not_or]
              exact ⟨Ne.symm other, ih List.mem_cons_self⟩
            · exact ih (List.mem_cons_of_mem _ later)

/-- No step of a path has a slash in it. -/
theorem not_mem_of_split
    {path : Path}
    {piece : String}
    (listed : piece ∈ path.split.2) :
    '/' ∉ piece.toList := by
  have body :
      ∀ text : List Char, piece ∈ (piecesOf text).map String.ofList → '/' ∉ piece.toList := by
    intro text member
    obtain ⟨own, inner, rfl⟩ := List.mem_map.mp member
    rw [String.toList_ofList]
    exact not_mem_of_piecesOf inner
  unfold split at listed
  split at listed
  next => exact body _ listed
  next => cases listed
  next =>
    rcases List.mem_cons.mp listed with rfl | later
    · exact List.not_mem_nil
    · exact body _ later
  next => exact body _ listed

/-- The name of a file has no slash in it. -/
theorem not_mem_of_fileName?
    {path : Path}
    {name : String}
    (named : path.fileName? = some name) :
    '/' ∉ name.toList := by
  unfold fileName? at named
  split at named
  next text found =>
    cases named
    have member := List.mem_of_getLast? found
    rw [steps, List.mem_append] at member
    rcases member with anchored | listed
    · cases anchor : path.split.1 <;> rw [anchor] at anchored <;> simp [anchorSteps] at anchored
    · obtain ⟨piece, member, same⟩ := List.mem_filterMap.mp listed
      unfold stepOf? at same
      split at same
      · cases same
      · split at same
        · cases same
        · cases same
          exact not_mem_of_split member
  next => cases named

/-- A name that a directory can hold. -/
structure Proper (name : String) : Prop where
  whole : '/' ∉ name.toList
  moves : isIdle name = false
  down : name ≠ ".."

end Path

namespace FileTree

/-- Where one piece of a path leads to from a place. -/
def placeAfter (place : Place) (piece : String) : Place :=
  if Path.isIdle piece then place
  else if piece = ".." then place.dropLast
  else place ++ [piece]

/-- The place that a path spells. -/
def destination (tree : FileTree) (path : Path) : Place :=
  path.split.2.foldl placeAfter (if path.split.1 = .root then [] else tree.home)

/-- All pieces of the text say where a path leads: a dot in front leads nowhere. -/
theorem destination_eq_pieces
    (tree : FileTree)
    (path : Path) :
    tree.destination path =
      ((Path.piecesOf path.text.toList).map String.ofList).foldl placeAfter
        (if path.text.toList.head? = some '/' then [] else tree.home) := by
  unfold destination Path.split
  split
  next rest shape =>
    rw [shape, Path.piecesOf, if_pos rfl]
    rfl
  next shape =>
    rw [shape]
    rfl
  next rest shape =>
    rw [shape, Path.piecesOf, Path.piecesOf, if_pos rfl]
    rfl
  next rest absolute alone dotted =>
    have relative : path.text.toList.head? ≠ some '/' := by
      intro first
      obtain ⟨others, shape⟩ := List.head?_eq_some_iff.mp first
      exact absolute others shape
    rw [if_neg relative]
    rfl

/-- A proper name leads one place down. -/
theorem placeAfter_of_proper
    {name : String}
    (proper : Path.Proper name)
    (place : Place) :
    placeAfter place name = place ++ [name] := by
  rw [placeAfter, proper.moves, if_neg Bool.false_ne_true, if_neg proper.down]

/-- A name joined to a path leads one place down. -/
theorem destination_join
    {name : String}
    (proper : Path.Proper name)
    (tree : FileTree)
    (path : Path) :
    tree.destination (path.join ⟨name⟩) = tree.destination path ++ [name] := by
  have relative : name.toList.head? ≠ some '/' :=
    fun first => proper.whole (List.mem_of_mem_head? first)
  have alone : Path.piecesOf name.toList = [name.toList] := Path.piecesOf_of_not_mem proper.whole
  have last : placeAfter (tree.destination path) name = tree.destination path ++ [name] :=
    placeAfter_of_proper proper _
  rw [← last]
  unfold Path.join
  rw [if_neg relative]
  by_cases empty : path.text = ""
  · rw [if_pos (.inl empty), destination_eq_pieces, destination_eq_pieces, empty]
    simp only [String.empty_append, if_neg relative, alone]
    simp [Path.piecesOf, placeAfter, Path.isIdle]
  · have filled : path.text.toList ≠ [] := by simpa using empty
    by_cases ended : path.text.toList.getLast? = some '/'
    · -- The slash at the end ends the piece before it, and the name is the next piece.
      obtain ⟨before, shape⟩ := List.getLast?_eq_some_iff.mp ended
      rw [if_pos (.inr ended), destination_eq_pieces, destination_eq_pieces]
      have sameStart : (path.text.toList ++ name.toList).head? = path.text.toList.head? :=
        List.head?_append_of_ne_nil _ filled
      have joined :
          Path.piecesOf (path.text.toList ++ name.toList) =
            Path.piecesOf before ++ [name.toList] := by
        rw [shape, List.append_assoc, List.singleton_append, Path.piecesOf_append, alone]
      have own : Path.piecesOf path.text.toList = Path.piecesOf before ++ [[]] := by
        rw [shape, Path.piecesOf_append, Path.piecesOf]
      simp only [String.toList_append, sameStart, joined, own, List.map_append, List.foldl_append,
        List.map_cons, List.map_nil, List.foldl_cons, List.foldl_nil, String.ofList_toList]
      rfl
    · rw [if_neg (not_or.mpr ⟨empty, ended⟩), destination_eq_pieces, destination_eq_pieces]
      have sameStart :
          (path.text.toList ++ '/' :: name.toList).head? = path.text.toList.head? :=
        List.head?_append_of_ne_nil _ filled
      have joined : (path.text ++ "/" ++ name).toList = path.text.toList ++ '/' :: name.toList := by
        simp [String.toList_append]
      simp only [joined, sameStart, Path.piecesOf_append, alone, List.map_append,
        List.foldl_append, List.map_cons, List.map_nil, List.foldl_cons, List.foldl_nil,
        String.ofList_toList]

/-- A path that ends with a name leads to a place of that name. -/
theorem getLast?_destination
    {path : Path}
    {name : String}
    (named : path.fileName? = some name)
    (tree : FileTree) :
    (tree.destination path).getLast? = some name := by
  have general :
      ∀ (pieces : List String) (start : Place),
        (pieces.filterMap Path.stepOf?).getLast? = some (.name name) →
          (pieces.foldl placeAfter start).getLast? = some name := by
    intro pieces start
    induction pieces using List.reverseRecOn with
    | nil => exact fun absent => by cases absent
    | append_singleton before piece ih =>
        rw [List.filterMap_append, List.foldl_append, List.foldl_cons, List.foldl_nil, placeAfter]
        intro last
        by_cases idle : Path.isIdle piece = true
        · have none : [piece].filterMap Path.stepOf? = [] := by simp [Path.stepOf?, idle]
          rw [none, List.append_nil] at last
          rw [if_pos idle]
          exact ih last
        · by_cases up : piece = ".."
          · have one : [piece].filterMap Path.stepOf? = [.up] := by
              rw [up]
              decide
            rw [one, List.getLast?_concat] at last
            cases last
          · have one : [piece].filterMap Path.stepOf? = [.name piece] := by
              simp [Path.stepOf?, idle, up]
            rw [one, List.getLast?_concat] at last
            cases last
            rw [if_neg idle, if_neg up, List.getLast?_concat]
  have last : path.steps.getLast? = some (.name name) := by
    unfold Path.fileName? at named
    split at named
    next text found =>
      cases named
      exact found
    next => cases named
  rw [Path.steps, List.getLast?_append] at last
  cases pieces : (path.split.2.filterMap Path.stepOf?).getLast? with
  | none =>
      rw [pieces, Option.none_or] at last
      cases anchor : path.split.1 <;> rw [anchor] at last <;> cases last
  | some step =>
      rw [pieces, Option.some_or] at last
      exact general _ _ (pieces.trans last)

section Entries

variable {tree : FileTree} {place other : Place} {entry : Entry}

@[simp] theorem home_put : (tree.put place entry).home = tree.home :=
  rfl

@[simp] theorem home_erase : (tree.erase place).home = tree.home :=
  rfl

/-- A directory stands where the tree has one as its entry. -/
theorem isDirectoryAt_iff :
    tree.isDirectoryAt place = true ↔ tree.at? place = some .directory := by
  unfold isDirectoryAt
  cases tree.at? place with
  | none => simp
  | some entry => cases entry <;> simp [Entry.isDirectory]

/-- Where no directory stands is not the top, which is one. -/
theorem ne_nil_of_not_directory
    (plain : tree.isDirectoryAt place = false) :
    place ≠ [] := by
  rintro rfl
  rw [isDirectoryAt, at?, if_pos rfl] at plain
  cases plain

/-- No file stands at the top. -/
theorem ne_nil_of_file
    {bytes : ByteArray}
    (standing : tree.at? place = some (.file bytes)) :
    place ≠ [] := by
  rintro rfl
  rw [at?, if_pos rfl] at standing
  cases standing

/-- What stands at other places stays. -/
theorem at?_put
    (inside : place ≠ []) :
    (tree.put place entry).at? other = if other = place then some entry else tree.at? other := by
  unfold at? put
  by_cases same : other = place
  · simp [same, inside]
  · rw [if_neg same]
    split
    · rfl
    · rw [List.find?_cons_of_neg (by simpa using Ne.symm same), List.find?_filter]
      congr 2
      funext candidate
      by_cases found : candidate.1 = other
      · simp [found, same]
      · simp [found]

/-- Erasing a place below the top empties that place alone. -/
theorem at?_erase
    (inside : place ≠ []) :
    (tree.erase place).at? other = if other = place then none else tree.at? other := by
  unfold at? erase
  by_cases same : other = place
  · simp [same, inside]
  · rw [if_neg same]
    split
    · rfl
    · rw [List.find?_filter]
      congr 2
      funext candidate
      by_cases found : candidate.1 = other
      · simp [found, same]
      · simp [found]

end Entries

/-- One piece of a path leads on where a directory stands and the name is not too long. -/
theorem go_eq_ok_iff
    {tree : FileTree}
    {place next : Place}
    {piece : String} :
    tree.go place piece = .ok next ↔
      tree.at? place = some .directory ∧
        (Path.isIdle piece = true ∨ piece = ".." ∨ piece.utf8ByteSize ≤ nameLimit) ∧
        next = placeAfter place piece := by
  unfold go enter placeAfter
  cases standing : tree.at? place with
  | none =>
      constructor
      · exact fun passed => by cases passed
      · exact fun passed => by cases passed.1
  | some entry =>
      cases entry with
      | file bytes =>
          constructor
          · exact fun passed => by cases passed
          · exact fun passed => by cases passed.1
      | directory =>
          show (if (piece == "" || piece == ".") = true then .ok place
            else if (piece == "..") = true then .ok place.dropLast
            else if nameLimit < piece.utf8ByteSize then .error .nameTooLong
            else .ok (place ++ [piece]) : Except OsError Place) = .ok next ↔ _
          by_cases idle : Path.isIdle piece = true
          · have same : (piece == "" || piece == ".") = true := idle
            rw [if_pos same, if_pos idle]
            constructor
            · rintro ⟨⟩
              exact ⟨rfl, .inl idle, rfl⟩
            · rintro ⟨_, _, rfl⟩
              rfl
          · have same : ¬ (piece == "" || piece == ".") = true := idle
            rw [if_neg same, if_neg idle]
            by_cases up : piece = ".."
            · rw [if_pos (beq_iff_eq.mpr up), if_pos up]
              constructor
              · rintro ⟨⟩
                exact ⟨rfl, .inr (.inl up), rfl⟩
              · rintro ⟨_, _, rfl⟩
                rfl
            · rw [if_neg (mt beq_iff_eq.mp up), if_neg up]
              by_cases long : nameLimit < piece.utf8ByteSize
              · rw [if_pos long]
                constructor
                · exact fun passed => by cases passed
                · rintro ⟨_, named | named | short, _⟩
                  · exact absurd named idle
                  · exact absurd named up
                  · exact absurd short (Nat.not_le.mpr long)
              · rw [if_neg long]
                constructor
                · rintro ⟨⟩
                  exact ⟨rfl, .inr (.inr (Nat.not_lt.mp long)), rfl⟩
                · rintro ⟨_, _, rfl⟩
                  rfl

/-- A later tree in which every directory still stands. -/
structure Grows (before after : FileTree) : Prop where
  home : after.home = before.home
  directories : ∀ place, before.at? place = some .directory → after.at? place = some .directory

namespace Grows

variable {before middle after : FileTree}

theorem refl (tree : FileTree) : Grows tree tree :=
  ⟨rfl, fun _ standing => standing⟩

theorem trans
    (first : Grows before middle)
    (second : Grows middle after) :
    Grows before after :=
  ⟨second.home.trans first.home,
    fun place standing => second.directories place (first.directories place standing)⟩

/-- A step that could be taken can be taken in a tree that has grown. -/
theorem go
    (grows : Grows before after)
    {place next : Place}
    {piece : String}
    (passed : before.go place piece = .ok next) :
    after.go place piece = .ok next := by
  obtain ⟨standing, rest⟩ := go_eq_ok_iff.mp passed
  exact go_eq_ok_iff.mpr ⟨grows.directories place standing, rest⟩

/-- A walk that could be made leads to the same place in a tree that has grown. -/
theorem walk
    (grows : Grows before after)
    {pieces : List String}
    {start place : Place}
    (passed : pieces.foldlM before.go start = .ok place) :
    pieces.foldlM after.go start = .ok place := by
  induction pieces generalizing start with
  | nil => exact passed
  | cons piece rest ih =>
      rw [List.foldlM_cons] at passed ⊢
      obtain ⟨next, first, others⟩ := exists_of_bind passed
      rw [grows.go first]
      exact ih others

/-- Paths start where they did before. -/
theorem start
    (grows : Grows before after)
    (path : Path) :
    after.start path = before.start path := by
  rw [FileTree.start, FileTree.start, grows.home]

/-- A path leads where it led. -/
theorem locate
    (grows : Grows before after)
    {path : Path}
    {place : Place}
    (leads : before.locate path = .ok place) :
    after.locate path = .ok place := by
  obtain ⟨⟨start, pieces⟩, begun, walked⟩ := exists_of_bind leads
  rw [FileTree.locate, grows.start, begun]
  exact grows.walk walked

/-- A path leads where it led before. -/
theorem destination
    (grows : Grows before after)
    (path : Path) :
    after.destination path = before.destination path := by
  rw [FileTree.destination, FileTree.destination, grows.home]

end Grows

section Ways

variable {tree after : FileTree} {path : Path} {place : Place} {bytes : ByteArray}

/-- A walk that can be made leads where its pieces say. -/
theorem walk_eq
    {pieces : List String}
    {start : Place}
    (passed : pieces.foldlM tree.go start = .ok place) :
    place = pieces.foldl placeAfter start := by
  induction pieces generalizing start with
  | nil =>
      cases passed
      rfl
  | cons piece rest ih =>
      rw [List.foldlM_cons] at passed
      obtain ⟨next, first, others⟩ := exists_of_bind passed
      rw [List.foldl_cons, ← (go_eq_ok_iff.mp first).2.2]
      exact ih others

/-- An absolute path starts at the top and any other one at home. -/
theorem start_eq
    {pieces : List String}
    (begun : tree.start path = .ok (place, pieces)) :
    place = (if path.split.1 = .root then [] else tree.home) ∧ pieces = path.split.2 := by
  unfold start at begun
  split at begun
  · cases begun
  · split at begun
    · cases begun
    · split at begun
      · cases begun
      · cases begun
        exact ⟨rfl, rfl⟩

/-- A path leads nowhere else than to the place that it spells. -/
theorem locate_eq_destination
    (leads : tree.locate path = .ok place) :
    place = tree.destination path := by
  obtain ⟨⟨start, pieces⟩, begun, walked⟩ := exists_of_bind leads
  obtain ⟨rfl, rfl⟩ := start_eq begun
  exact walk_eq walked

/-- The parent of a place and the name in it lead to the place itself, unless the path ends open. -/
theorem locate_of_locateParent
    {parent : Place}
    {last : String}
    (closed : endsOpen path = false)
    (entered : tree.locateParent path = .ok (parent, last))
    (passed : tree.go parent last = .ok place) :
    tree.locate path = .ok place := by
  obtain ⟨⟨start, pieces⟩, begun, walked⟩ := exists_of_bind entered
  obtain ⟨rfl, rfl⟩ := start_eq begun
  cases ending : path.split.2.getLast? with
  | none =>
      rw [endsOpen, ending] at closed
      cases closed
  | some name =>
      obtain ⟨before, shape⟩ := List.getLast?_eq_some_iff.mp ending
      have filled : (name == "") = false := by
        rw [endsOpen, ending] at closed
        simp only [Bool.or_eq_false_iff] at closed
        exact closed.1.1
      have kept : (path.split.2.reverse.dropWhile (· == "")).reverse = before ++ [name] := by
        rw [shape, List.reverse_append, List.reverse_singleton, List.singleton_append,
          List.dropWhile_cons_of_neg (by rw [filled]; exact Bool.false_ne_true),
          List.reverse_cons, List.reverse_reverse]
      simp only [kept, List.dropLast_concat, List.getLast?_concat, Option.getD_some] at walked
      obtain ⟨upper, inner, finished⟩ := exists_of_bind walked
      obtain ⟨_, _, finished⟩ := exists_of_bind finished
      cases finished
      rw [locate, begun]
      show path.split.2.foldlM tree.go _ = _
      rw [shape, List.foldlM_append, inner]
      show [last].foldlM tree.go parent = _
      rw [List.foldlM_cons, passed]
      rfl

/-- A written file stands where its path leads. -/
theorem write_spec
    (written : tree.write path bytes = .ok after) :
    ∃ place,
      tree.locate path = .ok place ∧
        tree.isDirectoryAt place = false ∧
        after = tree.put place (.file bytes) := by
  obtain ⟨⟨parent, last⟩, entered, written⟩ := exists_of_bind written
  obtain ⟨place, passed, written⟩ := exists_of_bind written
  cases plain : tree.isDirectoryAt place || endsOpen path with
  | true =>
      rw [plain] at written
      cases written
  | false =>
      rw [plain] at written
      cases written
      rw [Bool.or_eq_false_iff] at plain
      exact ⟨place, locate_of_locateParent plain.2 entered passed, plain.1, rfl⟩

/-- Removing a path erases the file that it leads to. -/
theorem remove_spec
    (removed : tree.remove path = .ok after) :
    ∃ place bytes,
      tree.locate path = .ok place ∧
        tree.at? place = some (.file bytes) ∧
        after = tree.erase place := by
  obtain ⟨place, leads, removed⟩ := exists_of_bind removed
  cases standing : tree.at? place with
  | none =>
      rw [standing] at removed
      cases removed
  | some entry =>
      cases entry with
      | directory =>
          rw [standing] at removed
          cases removed
      | file bytes =>
          rw [standing] at removed
          cases removed
          exact ⟨place, bytes, leads, standing, rfl⟩

/-- A file that a path leads to can be removed. -/
theorem remove_of_file
    (leads : tree.locate path = .ok place)
    (standing : tree.at? place = some (.file bytes)) :
    tree.remove path = .ok (tree.erase place) := by
  rw [remove, leads]
  simp only [bind, Except.bind, standing]

/-- A file that is moved leaves its place and stands where the new path leads. -/
theorem move_spec
    {source target : Path}
    (moved : tree.move source target = .ok after) :
    ∃ origin place bytes,
      tree.locate source = .ok origin ∧
        tree.locate target = .ok place ∧
        tree.at? origin = some (.file bytes) ∧
        tree.isDirectoryAt place = false ∧
        after = (tree.erase origin).put place (.file bytes) := by
  obtain ⟨origin, leads, moved⟩ := exists_of_bind moved
  obtain ⟨⟨parent, last⟩, entered, moved⟩ := exists_of_bind moved
  simp only at moved
  split at moved
  · cases moved
  obtain ⟨place, passed, moved⟩ := exists_of_bind moved
  cases standing : tree.at? origin with
  | none =>
      rw [standing] at moved
      cases moved
  | some entry =>
      cases entry with
      | directory =>
          rw [standing] at moved
          cases moved
      | file bytes =>
          rw [standing] at moved
          simp only at moved
          split at moved
          · cases moved
          next closed =>
            split at moved
            · cases moved
            next plain =>
              cases moved
              have locates := locate_of_locateParent (Bool.not_eq_true _ ▸ closed) entered passed
              exact ⟨origin, place, bytes, leads, locates, standing, Bool.not_eq_true _ ▸ plain, rfl⟩

end Ways

end FileTree

end SceneMarkup.Files
