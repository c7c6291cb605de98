import SceneMarkup.Proofs.PathDestinations

namespace SceneMarkup.Files

/-!
# From a root to a file

A path is resolved by its text alone: two dots take back the name before them.
The path of a file as seen from a root climbs out of what only the root has and
goes down to the file from there, so behind the root it leads where the file is.
-/

section Resolving

/-- Go one step on; two dots take back a name, stay at the root of all, and are kept elsewhere. -/
def follow (trail : List Step) : Step → List Step
  | .here => trail
  | .up =>
      match trail.getLast? with
      | some (.name _) => trail.dropLast
      | some .root => trail
      | _ => trail ++ [.up]
  | step => trail ++ [step]

/-- The steps that are left when no name is taken back any more. -/
def resolve (steps : List Step) : List Step :=
  steps.foldl follow []

/-- Two dots behind a name take it back, those in front have nothing to take back. -/
example :
    resolve (Path.steps ⟨"../a/./b/../../../c"⟩) = [.up, .up, .name "c"] ∧
      resolve (Path.steps ⟨"/../a"⟩) = [.root, .name "a"] := by
  decide +kernel

/-- Steps that only go down. -/
def Step.GoesDown : Step → Prop
  | .root => True
  | .name _ => True
  | _ => False

/-- Single dots lead nowhere. -/
theorem foldl_follow_filter
    (steps trail : List Step) :
    (steps.filter (· != .here)).foldl follow trail = steps.foldl follow trail := by
  induction steps generalizing trail with
  | nil => rfl
  | cons step rest ih =>
      cases step with
      | here => exact ih trail
      | root => exact ih _
      | up => exact ih _
      | name text => exact ih _

/-- Steps that go down are added to the trail. -/
theorem foldl_follow_down
    {steps : List Step}
    (down : ∀ step ∈ steps, step.GoesDown)
    (trail : List Step) :
    steps.foldl follow trail = trail ++ steps := by
  induction steps generalizing trail with
  | nil => exact (List.append_nil trail).symm
  | cons step rest ih =>
      obtain ⟨own, others⟩ := List.forall_mem_cons.mp down
      have taken : follow trail step = trail ++ [step] := by
        cases step with
        | root => rfl
        | name text => rfl
        | here => cases own
        | up => cases own
      simp only [List.foldl_cons, taken, ih others, List.append_assoc, List.singleton_append]

/-- As many steps up as there are names take all of them back. -/
theorem foldl_follow_climb
    (names : List String)
    (trail : List Step) :
    (names.map fun _ => Step.up).foldl follow (trail ++ names.map .name) = trail := by
  induction names using List.reverseRecOn with
  | nil => exact List.append_nil trail
  | append_singleton names last ih =>
      have back :
          follow (trail ++ (names ++ [last]).map .name) .up = trail ++ names.map .name := by
        simp [follow, ← List.append_assoc]
      have first :
          ((names ++ [last]).map fun _ => Step.up) = .up :: names.map fun _ => Step.up := by
        simp only [List.map_const', List.length_append, List.length_singleton, List.replicate_succ]
      simp only [first, List.foldl_cons, back, ih]

end Resolving

namespace Path

/-- A path that starts at the root of all. -/
def IsAbsolute (path : Path) : Prop :=
  path.text.toList.head? = some '/'

instance (path : Path) : Decidable path.IsAbsolute :=
  inferInstanceAs (Decidable (_ = _))

/-- The step that an absolute path begins with. -/
def opening (path : Path) : List Step :=
  if path.IsAbsolute then [.root] else []

/-- Steps that can stand inside of a path. -/
def IsInner : Step → Prop
  | .up => True
  | .name text => Proper text
  | _ => False

section Steps

/-- A path starts at the top exactly if it is absolute. -/
theorem anchor_eq_root_iff
    {path : Path} :
    path.split.1 = .root ↔ path.IsAbsolute := by
  unfold IsAbsolute split
  split
  next rest shape => simp [shape]
  next shape => simp [shape]
  next rest shape => simp [shape]
  next relative _ _ =>
    constructor
    · intro same
      cases same
    · intro first
      obtain ⟨rest, shape⟩ := List.head?_eq_some_iff.mp first
      exact (relative rest shape).elim

/-- A piece of a path is no step to the top. -/
theorem isInner_of_piece
    {piece : String}
    (whole : '/' ∉ piece.toList)
    {step : Step}
    (taken : stepOf? piece = some step) :
    IsInner step := by
  unfold stepOf? at taken
  split at taken
  next => cases taken
  next moves =>
    split at taken
    next =>
      cases taken
      trivial
    next down =>
      cases taken
      exact ⟨whole, Bool.eq_false_iff.mpr moves, down⟩

/-- A path is an opening, inner steps and maybe single dots. -/
theorem moves_eq
    (path : Path) :
    ∃ inner, (∀ step ∈ inner, IsInner step) ∧ path.moves = path.opening ++ inner := by
  have inside : ∀ step ∈ path.split.2.filterMap stepOf?, IsInner step := by
    intro step listed
    obtain ⟨piece, member, taken⟩ := List.mem_filterMap.mp listed
    exact isInner_of_piece (not_mem_of_split member) taken
  have kept :
      (path.split.2.filterMap stepOf?).filter (· != .here) = path.split.2.filterMap stepOf? := by
    refine List.filter_eq_self.mpr fun step listed => ?_
    have inner := inside step listed
    cases step with
    | here => cases inner
    | root => rfl
    | up => rfl
    | name text => rfl
  refine ⟨_, inside, ?_⟩
  have front : (anchorSteps path.split.1).filter (· != .here) = path.opening := by
    unfold opening
    by_cases absolute : path.IsAbsolute
    · rw [if_pos absolute, anchor_eq_root_iff.mpr absolute]
      rfl
    · rw [if_neg absolute]
      cases anchor : path.split.1 with
      | root => exact (absolute (anchor_eq_root_iff.mp anchor)).elim
      | implicit => rfl
      | here => rfl
  rw [moves, steps, List.filter_append, kept, front]

/-- An absolute path has a step to the top. -/
theorem root_mem_steps
    {path : Path}
    (absolute : path.IsAbsolute) :
    .root ∈ path.steps := by
  rw [steps, anchor_eq_root_iff.mpr absolute]
  exact List.mem_cons_self

/-- Single dots do not change where a path leads. -/
theorem resolve_moves
    (path : Path) :
    resolve path.moves = resolve path.steps :=
  foldl_follow_filter path.steps []

end Steps

section Written

/-- Inner steps as a text. -/
def written (steps : List Step) : Path :=
  ⟨"/".intercalate (steps.map Step.text)⟩

/-- The text of an inner step has no slash in it. -/
theorem slash_not_mem_text
    {step : Step}
    (inner : IsInner step) :
    '/' ∉ step.text.toList := by
  cases step with
  | up => decide
  | name text => exact inner.whole
  | root => cases inner
  | here => cases inner

/-- The text of an inner step is read as that step. -/
theorem stepOf?_text
    {step : Step}
    (inner : IsInner step) :
    stepOf? step.text = some step := by
  cases step with
  | up => rfl
  | name text => simp [Step.text, stepOf?, inner.moves, inner.down]
  | root => cases inner
  | here => cases inner

/-- Inner steps that are written as a path are its pieces. -/
theorem piecesOf_written
    {first : Step}
    {rest : List Step}
    (inner : ∀ step ∈ first :: rest, IsInner step) :
    (piecesOf (written (first :: rest)).text.toList).map String.ofList =
      (first :: rest).map Step.text := by
  induction rest generalizing first with
  | nil =>
      have alone := piecesOf_of_not_mem (slash_not_mem_text (inner first List.mem_cons_self))
      simp [written, alone]
  | cons next rest ih =>
      obtain ⟨own, others⟩ := List.forall_mem_cons.mp inner
      have alone := piecesOf_of_not_mem (slash_not_mem_text own)
      have text :
          (written (first :: next :: rest)).text.toList =
            first.text.toList ++ '/' :: (written (next :: rest)).text.toList := by
        simp [written, String.toList_intercalate, List.intercalate]
      rw [text, piecesOf_append, alone, List.map_append, ih others]
      simp

/-- A text whose first piece is a step begins with that step. -/
theorem split_of_pieces
    {path : Path}
    {piece : String}
    {pieces : List String}
    (spelled : (piecesOf path.text.toList).map String.ofList = piece :: pieces)
    (moves : isIdle piece = false) :
    path.split = (.implicit, piece :: pieces) := by
  have idle : ∀ {other : String} {others : List String},
      piece :: pieces = other :: others → isIdle other = true → False := by
    rintro other others same idle
    cases same
    rw [moves] at idle
    cases idle
  unfold split
  split
  next rest shape =>
    rw [shape, piecesOf, if_pos rfl] at spelled
    exact (idle spelled.symm rfl).elim
  next shape =>
    rw [shape] at spelled
    exact (idle spelled.symm rfl).elim
  next rest shape =>
    rw [shape, piecesOf, piecesOf, if_pos rfl, if_neg (by decide)] at spelled
    exact (idle spelled.symm rfl).elim
  next => exact congrArg (Prod.mk Anchor.implicit) spelled

/-- Inner steps are read back from their text. -/
theorem steps_written
    {steps : List Step}
    (inner : ∀ step ∈ steps, IsInner step) :
    (written steps).steps = steps := by
  cases steps with
  | nil => rfl
  | cons first rest =>
      have moves : isIdle first.text = false := by
        have taken := stepOf?_text (inner first List.mem_cons_self)
        unfold stepOf? at taken
        split at taken
        next => cases taken
        next moves => exact Bool.eq_false_iff.mpr moves
      have read : ((first :: rest).map Step.text).filterMap stepOf? = first :: rest := by
        rw [List.filterMap_map]
        refine (List.filterMap_congr fun step listed => ?_).trans List.filterMap_some
        exact stepOf?_text (inner step listed)
      have parts := split_of_pieces (piecesOf_written inner) moves
      rw [Path.steps, parts]
      exact read

end Written

section Relative

/-- What two lists start with is dropped from both. -/
theorem dropCommon_spec
    (left right : List Step) :
    ∃ common,
      left = common ++ (dropCommon left right).1 ∧ right = common ++ (dropCommon left right).2 := by
  fun_induction dropCommon left right with
  | case1 rest first others ih =>
      obtain ⟨common, left, right⟩ := ih
      exact ⟨first :: common, congrArg (first :: ·) left, congrArg (first :: ·) right⟩
  | case2 => exact ⟨[], rfl, rfl⟩
  | case3 => exact ⟨[], rfl, rfl⟩

/-- Paths that are both absolute or both relative part inside. -/
theorem dropCommon_opening
    (opening : List Step)
    (left right : List Step) :
    dropCommon (opening ++ left) (opening ++ right) = dropCommon left right := by
  induction opening with
  | nil => rfl
  | cons step rest ih => rw [List.cons_append, List.cons_append, dropCommon, if_pos rfl, ih]

/-- Inner steps without steps up are names. -/
theorem exists_names
    {steps : List Step}
    (inner : ∀ step ∈ steps, IsInner step)
    (plain : Step.up ∉ steps) :
    ∃ names : List String, steps = names.map .name := by
  induction steps with
  | nil => exact ⟨[], rfl⟩
  | cons step rest ih =>
      obtain ⟨own, others⟩ := List.forall_mem_cons.mp inner
      obtain ⟨differs, later⟩ := not_or.mp (mt List.mem_cons.mpr plain)
      obtain ⟨names, rfl⟩ := ih others later
      cases step with
      | name text => exact ⟨text :: names, rfl⟩
      | up => exact (differs rfl).elim
      | root => cases own
      | here => cases own

/-- Names behind the opening of a path only go down. -/
theorem goesDown_of_names
    (path : Path)
    (names : List String) :
    ∀ step ∈ path.opening ++ names.map .name, step.GoesDown := by
  intro step listed
  rcases List.mem_append.mp listed with front | inside
  · unfold opening at front
    split at front
    next =>
      cases List.mem_singleton.mp front
      trivial
    next => cases front
  · obtain ⟨name, _, rfl⟩ := List.mem_map.mp inside
    trivial

/--
File and root share some names; the path between them goes up once for each name that only the
root has, and then down what only the file has.
-/
theorem exists_parting
    {file root : Path}
    (alike : file.IsAbsolute ↔ root.IsAbsolute)
    (plain : Step.up ∉ root.steps) :
    ∃ (shared names : List String) (down : List Step),
      root.moves = file.opening ++ (shared ++ names).map .name ∧
        file.moves = file.opening ++ (shared.map .name ++ down) ∧
        (∀ step ∈ down, IsInner step) ∧
        (⟨file.relativeTo root⟩ : Path) = written ((names.map fun _ => Step.up) ++ down) := by
  obtain ⟨inside, fileInner, fileMoves⟩ := file.moves_eq
  obtain ⟨outside, rootInner, rootMoves⟩ := root.moves_eq
  have opening : root.opening = file.opening := if_congr alike.symm rfl rfl
  rw [opening] at rootMoves
  -- The root has no steps up, so all of its inner steps are names.
  have noneUp : Step.up ∉ outside := by
    intro listed
    have member : Step.up ∈ root.moves := rootMoves ▸ List.mem_append_right _ listed
    exact plain (List.mem_filter.mp member).1
  obtain ⟨places, rfl⟩ := exists_names rootInner noneUp
  obtain ⟨common, fileParts, rootParts⟩ := dropCommon_spec inside (places.map .name)
  have parted : dropCommon file.moves root.moves = dropCommon inside (places.map .name) := by
    rw [fileMoves, rootMoves, dropCommon_opening]
  generalize dropCommon inside (places.map .name) = parts at parted fileParts rootParts
  obtain ⟨down, up⟩ := parts
  obtain ⟨shared, names, rfl, rfl, rfl⟩ := List.map_eq_append_iff.mp rootParts
  subst fileParts
  refine ⟨shared, names, down, rootMoves, fileMoves, (List.forall_mem_append.mp fileInner).2, ?_⟩
  unfold relativeTo written
  simp only [parted, List.map_append, List.map_map, Function.comp_def]

/-- Behind a path that only goes down, steps go on from its end. -/
theorem resolve_append
    {path : Path}
    {names : List String}
    {others : List Step}
    (moves : path.moves = path.opening ++ (names.map .name ++ others))
    (steps : List Step) :
    resolve (path.steps ++ steps) =
      steps.foldl follow (others.foldl follow (path.opening ++ names.map .name)) := by
  have straight := foldl_follow_down (goesDown_of_names path names) []
  have own : resolve path.steps = others.foldl follow (path.opening ++ names.map .name) := by
    rw [← resolve_moves, resolve, moves, ← List.append_assoc, List.foldl_append, straight,
      List.nil_append]
  rw [resolve, List.foldl_append]
  exact congrArg (steps.foldl follow) own

/--
The path of a file as seen from a root leads from the root to the file, wherever
both start: behind the steps of a root without steps up it resolves to what the
file resolves to.  It is a relative path.
-/
theorem relativeTo_leads
    {file root : Path}
    (alike : file.IsAbsolute ↔ root.IsAbsolute)
    (plain : Step.up ∉ root.steps) :
    resolve (root.steps ++ Path.steps ⟨file.relativeTo root⟩) = resolve file.steps ∧
      ¬ Path.IsAbsolute ⟨file.relativeTo root⟩ := by
  have opening : root.opening = file.opening := if_congr alike.symm rfl rfl
  obtain ⟨shared, names, down, rootMoves, fileMoves, inner, way⟩ := exists_parting alike plain
  have steps : ∀ step ∈ (names.map fun _ => Step.up) ++ down, IsInner step := by
    refine List.forall_mem_append.mpr ⟨fun step listed => ?_, inner⟩
    obtain ⟨_, _, rfl⟩ := List.mem_map.mp listed
    trivial
  have read := steps_written steps
  rw [way]
  constructor
  · have rooted : root.moves = root.opening ++ ((shared ++ names).map .name ++ []) := by
      rw [rootMoves, opening, List.append_nil]
    have arrived := resolve_append fileMoves []
    rw [List.append_nil] at arrived
    rw [read, resolve_append rooted, arrived, List.foldl_append, opening, List.map_append,
      ← List.append_assoc]
    exact congrArg (down.foldl follow) (foldl_follow_climb names _)
  · intro absolute
    have listed := root_mem_steps absolute
    rw [read] at listed
    cases steps .root listed

/-- A file in a neighbouring directory, behind detours of its own. -/
theorem relativeTo_leads_neighbour :
    let file : Path := ⟨"./public/hall/.././models//robot.glb"⟩
    let root : Path := ⟨"public/src/."⟩
    file.relativeTo root = "../hall/../models/robot.glb" ∧
      resolve (root.steps ++ Path.steps ⟨file.relativeTo root⟩) = resolve file.steps ∧
      ¬ Path.IsAbsolute ⟨file.relativeTo root⟩ := by
  intro file root
  have alike : file.IsAbsolute ↔ root.IsAbsolute := by
    decide
  have plain : Step.up ∉ root.steps := by
    decide +kernel
  exact ⟨by decide +kernel, relativeTo_leads alike plain⟩

end Relative

end Path

end SceneMarkup.Files
