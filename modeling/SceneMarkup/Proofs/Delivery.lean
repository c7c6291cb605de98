import SceneMarkup.Filters.Standard
import SceneMarkup.Proofs.Preparing

namespace SceneMarkup.Job

open Files (FileTree OsError Path Place)
open Files.FileTree (DiffersAt Grows)
open Filters (Filter FilterTable FilterResult)

/-!
# A component is delivered or nothing is

Everything before the delivery only reads.  The text is written beside the output
and moved there as a whole, so the output changes when all has gone well; whatever
fails before that takes the temporary file away.
-/

section Temporary

/-- The name of the temporary file beside an output. -/
def temporaryName (output : Path) : String :=
  "." ++ output.fileName?.getD "" ++ ".tmp"

/-- The temporary name is the name of a file. -/
theorem proper_temporaryName (output : Path) : Path.Proper (temporaryName output) := by
  have long : 5 ≤ (temporaryName output).length := by
    simp only [temporaryName, String.length_append]
    have dot : ".".length = 1 := rfl
    have ending : ".tmp".length = 4 := rfl
    omega
  refine ⟨?_, ?_, ?_⟩
  · simp only [temporaryName, String.toList_append, List.mem_append, not_or]
    refine ⟨⟨by decide, ?_⟩, by decide⟩
    cases named : output.fileName? with
    | none => exact List.not_mem_nil
    | some name => exact Path.not_mem_of_fileName? named
  · rw [Path.isIdle, Bool.or_eq_false_iff, beq_eq_false_iff_ne, beq_eq_false_iff_ne]
    constructor <;> intro same <;> rw [same] at long <;> exact absurd long (by decide)
  · intro same
    rw [same] at long
    exact absurd long (by decide)

/-- The temporary file is not where the output is. -/
theorem destination_temporaryPath_ne
    (tree : FileTree)
    (output : Path) :
    tree.destination (temporaryPath output) ≠ tree.destination output := by
  have proper := proper_temporaryName output
  unfold temporaryPath Path.withFileName
  cases named : output.fileName? with
  | none =>
      rw [temporaryName, named] at proper
      rw [Option.isSome_none, if_neg Bool.false_ne_true, FileTree.destination_join proper]
      intro same
      have lengths := congrArg List.length same
      rw [List.length_append, List.length_singleton] at lengths
      omega
  | some name =>
      rw [temporaryName, named] at proper
      rw [Option.isSome_some, if_pos rfl, FileTree.destination_join proper]
      intro same
      have last := FileTree.getLast?_destination named tree
      rw [← same, List.getLast?_concat, Option.getD_some] at last
      have lengths := congrArg String.length (Option.some.inj last)
      simp only [String.length_append] at lengths
      have dot : ".".length = 1 := rfl
      omega

end Temporary

section Deliver

/-- The tree after an attempt to take the temporary file away. -/
def tidied (output : Path) (tree : FileTree) : FileTree :=
  (tree.remove (temporaryPath output)).toOption.getD tree

/-- How a delivery ends: with the text moved to the output, or with an attempt to take away what was
written. -/
inductive Delivers (output : Path) (text : String) (world : World) :
    Except Failure Unit × World → Prop
  | done
      {written moved : FileTree}
      (accepted : world.tree.write (temporaryPath output) text.toUTF8 = .ok written)
      (placed : written.move (temporaryPath output) output = .ok moved) :
      Delivers output text world (.ok (), { world with tree := moved })
  | withdrawn
      (failure : Failure)
      {part : ByteArray}
      {written : FileTree}
      (accepted : world.tree.write (temporaryPath output) part = .ok written) :
      Delivers output text world (.error failure, { world with tree := tidied output written })
  | refused
      (failure : Failure) :
      Delivers output text world (.error failure, { world with tree := tidied output world.tree })

/-- Delivering a text ends in one of the listed ways. -/
theorem delivers_outcome
    (output : Path)
    (text : String)
    (world : World) :
    Delivers output text world ((deliver output text).outcome world) := by
  let tidy (failure : Failure) : Work Unit := do
    Work.attempt fun tree => tree.remove (temporaryPath output)
    throw failure
  show Delivers output text world (Work.outcome (do
    tryCatch (Work.write (temporaryPath output) text.toUTF8) tidy
    tryCatch (Work.move (temporaryPath output) output) tidy) world)
  have tidies :
      ∀ failure middle,
        (tidy failure).outcome middle =
          (.error failure, { middle with tree := tidied output middle.tree }) :=
    fun _ _ => rfl
  rw [Work.outcome_bind, Work.outcome_tryCatch]
  cases written : Work.outcome (Work.write (temporaryPath output) text.toUTF8) world with
  | mk result middle =>
      have ends := Work.writes_outcome (temporaryPath output) text.toUTF8 world
      rw [written] at ends
      cases ends with
      | refused failure =>
          simp only [tidies]
          exact Delivers.refused failure
      | cutShort failure accepted =>
          simp only [tidies]
          exact Delivers.withdrawn failure accepted
      | @done full accepted =>
          let holding : World := { world with tree := full }
          show Delivers output text world (Work.outcome
            (tryCatch (Work.move (temporaryPath output) output) tidy) holding)
          rw [Work.outcome_tryCatch]
          cases moved : Work.outcome (Work.move (temporaryPath output) output) holding with
          | mk result later =>
              have ends := Work.moves_outcome (temporaryPath output) output holding
              rw [moved] at ends
              cases ends with
              | refused failure =>
                  simp only [tidies]
                  exact Delivers.withdrawn failure accepted
              | done placed => exact Delivers.done accepted placed

end Deliver

section Ending

variable {output : Path} {tree written : FileTree} {place : Place} {bytes part : ByteArray}

open Work

/-- A file that was written is the content of its path. -/
theorem content?_put
    (leads : tree.locate output = .ok place)
    (plain : tree.isDirectoryAt place = false) :
    (tree.put place (.file bytes)).content? output = some (.file bytes) := by
  have inside := FileTree.ne_nil_of_not_directory plain
  refine FileTree.content?_eq_some_iff.mpr
    ⟨place, (DiffersAt.put plain bytes).grows.locate leads, ?_⟩
  rw [FileTree.at?_put inside, if_pos rfl]

/-- A file that was erased is no content of its path. -/
theorem content?_erase
    (leads : tree.locate output = .ok place)
    (standing : tree.at? place = some (.file bytes)) :
    (tree.erase place).content? output = none := by
  have differs := DiffersAt.erase standing
  cases shown : (tree.erase place).content? output with
  | none => rfl
  | some entry =>
      obtain ⟨spot, found, stands⟩ := FileTree.content?_eq_some_iff.mp shown
      have same := differs.shrinks.locate found
      rw [leads] at same
      cases same
      have inside : place ≠ [] := FileTree.ne_nil_of_file standing
      rw [FileTree.at?_erase inside, if_pos rfl] at stands
      cases stands

/-- Taking the temporary file away changes nothing elsewhere. -/
theorem tidied_differs
    (output : Path)
    (tree : FileTree) :
    DiffersAt (tree.destination (temporaryPath output)) tree (tidied output tree) := by
  unfold tidied
  cases removed : tree.remove (temporaryPath output) with
  | error => exact DiffersAt.refl _ _
  | ok after =>
      obtain ⟨place, bytes, leads, standing, rfl⟩ := FileTree.remove_spec removed
      rw [← FileTree.locate_eq_destination leads]
      exact DiffersAt.erase standing

/-- What stays where the temporary file would be was there. -/
theorem tidied_keeps
    {entry : Files.Entry}
    (shown : (tidied output tree).content? (temporaryPath output) = some entry) :
    tree.content? (temporaryPath output) = some entry := by
  unfold tidied at shown
  cases removed : tree.remove (temporaryPath output) with
  | error =>
      rw [removed] at shown
      exact shown
  | ok after =>
      obtain ⟨place, bytes, leads, standing, rfl⟩ := FileTree.remove_spec removed
      rw [removed] at shown
      rw [Except.toOption, Option.getD_some, content?_erase leads standing] at shown
      cases shown

/-- What was written to the temporary file is taken away. -/
theorem tidied_written
    (accepted : tree.write (temporaryPath output) part = .ok written) :
    (tidied output written).content? (temporaryPath output) = none := by
  obtain ⟨place, leads, plain, rfl⟩ := FileTree.write_spec accepted
  have inside := FileTree.ne_nil_of_not_directory plain
  have standing : (tree.put place (.file part)).at? place = some (.file part) := by
    rw [FileTree.at?_put inside, if_pos rfl]
  have found := (DiffersAt.put plain part).grows.locate leads
  unfold tidied
  rw [FileTree.remove_of_file found standing]
  exact content?_erase found standing

/-- Filters that write no files. -/
def LeavesFiles (filters : FilterTable) : Prop :=
  ∀ name filter, filters name = some filter → Filters.ReadsOnly filter

/-- Filters that write no file cannot tell a tree from itself. -/
theorem LeavesFiles.blind
    {filters : FilterTable}
    (quiet : LeavesFiles filters)
    (tree : FileTree) :
    Blind filters tree tree :=
  fun name filter found words text => ⟨quiet name filter found tree words text, rfl⟩

/-- What a conversion that failed leaves behind. -/
structure Spared (output : Path) (before after : FileTree) : Prop where
  elsewhere :
    ∀ path,
      before.destination path ≠ before.destination (temporaryPath output) →
        after.content? path = before.content? path
  target : after.content? output = before.content? output
  temporary :
    ∀ entry,
      after.content? (temporaryPath output) = some entry →
        before.content? (temporaryPath output) = some entry

/-- What a conversion that succeeded leaves behind. -/
structure Delivered (output : Path) (text : String) (before after : FileTree) : Prop where
  grows : Grows before after
  target : after.content? output = some (.file text.toUTF8)
  temporary : after.content? (temporaryPath output) = none
  elsewhere :
    ∀ path,
      before.destination path ≠ before.destination (temporaryPath output) →
        before.destination path ≠ before.destination output →
          after.content? path = before.content? path

/-- A tree that differs in the temporary file only spares the output. -/
theorem spared_of_differs
    {before after : FileTree}
    (differs : DiffersAt (before.destination (temporaryPath output)) before after)
    (temporary :
      ∀ entry,
        after.content? (temporaryPath output) = some entry →
          before.content? (temporaryPath output) = some entry) :
    Spared output before after :=
  ⟨fun _ elsewhere => differs.content?_eq elsewhere,
    differs.content?_eq (destination_temporaryPath_ne before output).symm, temporary⟩

theorem spared_refl
    (output : Path)
    (tree : FileTree) :
    Spared output tree tree :=
  spared_of_differs (DiffersAt.refl _ _) fun _ shown => shown

/-- A delivery that failed spares the output. -/
theorem delivers_spared
    {text : String}
    {world after : World}
    {failure : Failure}
    (delivers : Delivers output text world (.error failure, after)) :
    Spared output world.tree after.tree := by
  cases delivers with
  | @withdrawn _ part written accepted =>
      have cleared := tidied_written accepted
      obtain ⟨place, leads, plain, rfl⟩ := FileTree.write_spec accepted
      obtain rfl := FileTree.locate_eq_destination leads
      have first := DiffersAt.put plain part
      have second := tidied_differs output
        (world.tree.put (world.tree.destination (temporaryPath output)) (.file part))
      rw [first.grows.destination] at second
      refine spared_of_differs (first.trans second) fun entry shown => ?_
      rw [cleared] at shown
      cases shown
  | refused => exact spared_of_differs (tidied_differs _ _) fun _ => tidied_keeps

/-- A delivery that succeeded puts the text at the output. -/
theorem delivers_delivered
    {text : String}
    {world after : World}
    (delivers : Delivers output text world (.ok (), after)) :
    Delivered output text world.tree after.tree := by
  cases delivers with
  | done accepted placed =>
      obtain ⟨spare, leads, plain, rfl⟩ := FileTree.write_spec accepted
      obtain ⟨origin, place, bytes, found, second, standing, free, rfl⟩ :=
        FileTree.move_spec placed
      have writes := DiffersAt.put plain text.toUTF8
      rw [writes.grows.locate leads] at found
      cases found
      have held : (world.tree.put spare (.file text.toUTF8)).at? spare = some (.file text.toUTF8) := by
        rw [FileTree.at?_put (FileTree.ne_nil_of_not_directory plain), if_pos rfl]
      rw [held] at standing
      cases standing
      have erases := DiffersAt.erase held
      have leadsOut := writes.shrinks.locate second
      have apart := destination_temporaryPath_ne world.tree output
      rw [← FileTree.locate_eq_destination leads, ← FileTree.locate_eq_destination leadsOut] at apart
      have vacant :
          ((world.tree.put spare (.file text.toUTF8)).erase spare).isDirectoryAt place = false := by
        rw [FileTree.isDirectoryAt, erases.others place apart.symm]
        exact free
      have puts := DiffersAt.put vacant text.toUTF8
      refine ⟨(writes.trans erases).grows.trans puts.grows, ?_, ?_,
        fun path notSpare notOutput => ?_⟩
      · exact content?_put (erases.grows.locate second) vacant
      · rw [puts.content?_eq]
        · exact content?_erase (writes.grows.locate leads) held
        · rw [erases.grows.destination, writes.grows.destination,
            ← FileTree.locate_eq_destination leads]
          exact apart
      · rw [← FileTree.locate_eq_destination leads] at notSpare
        rw [← FileTree.locate_eq_destination leadsOut] at notOutput
        rw [puts.content?_eq, (writes.trans erases).content?_eq notSpare]
        rw [(writes.trans erases).grows.destination]
        exact notOutput

/-- A conversion that failed spares the output, whichever step failed. -/
theorem convert_spared
    {filters : FilterTable}
    (quiet : LeavesFiles filters)
    {input : Path}
    {options : Options}
    {before after : World}
    {failure : Failure}
    (failed : outcome (convert filters input output options) before = (.error failure, after)) :
    Spared output before.tree after.tree := by
  have kept : (outcome (componentText filters input options) before).2.tree = before.tree :=
    tree_of_alike (componentText_alike (quiet.blind before.tree) fun _ _ => rfl)
  rw [convert, outcome_bind] at failed
  rcases made : outcome (componentText filters input options) before with ⟨fault | text, middle⟩
  · rw [made] at failed kept
    cases failed
    rw [kept]
    exact spared_refl _ _
  · rw [made] at failed kept
    simp only at failed kept
    rw [outcome_bind] at failed
    have ends := delivers_outcome output text middle
    rcases delivered : outcome (deliver output text) middle with ⟨fault | done, later⟩
    · rw [delivered] at failed ends
      cases failed
      rw [← kept]
      exact delivers_spared ends
    · rw [delivered] at failed
      cases failed

/-- A conversion that succeeded delivers the text of the component. -/
theorem convert_delivered
    {filters : FilterTable}
    (quiet : LeavesFiles filters)
    {input : Path}
    {options : Options}
    {before after : World}
    (ran : outcome (convert filters input output options) before = (.ok (), after)) :
    ∃ text,
      (outcome (componentText filters input options) before).1 = .ok text ∧
        Delivered output text before.tree after.tree := by
  have kept : (outcome (componentText filters input options) before).2.tree = before.tree :=
    tree_of_alike (componentText_alike (quiet.blind before.tree) fun _ _ => rfl)
  obtain ⟨text, middle, made, ran⟩ := bind_succeeds.mp ran
  obtain ⟨_, later, delivered, ran⟩ := bind_succeeds.mp ran
  have ends := delivers_outcome output text middle
  rw [made] at kept ⊢
  rw [delivered] at ends
  cases ran
  have whole : Delivered output text middle.tree later.tree := delivers_delivered ends
  rw [show middle.tree = before.tree from kept] at whole
  exact ⟨text, rfl, whole⟩

/-- The one filter that writes its text again. -/
def copyingFilter : FilterTable :=
  fun name => if name = "cat" then some Filters.concatenate else none

/-- The text of an asset with nothing in its scene. -/
def emptyAsset : String :=
  "\x7b\"asset\":\x7b\"version\":\"2.0\"\x7d,\"scenes\":[\x7b\"nodes\":[]\x7d]\x7d"

/-- The words that call the editor. -/
def editorWords : List String :=
  "sed" :: filterDirectories.map (· ++ "sed")

/-- The standard filters without the editor. -/
def readers : FilterTable :=
  fun name => if name = "sed" then none else Filters.standard name

/-- The filters without the editor write no files. -/
theorem leavesFiles_readers : LeavesFiles readers := by
  intro name filter found
  unfold readers at found
  split at found
  · cases found
  next other => exact Filters.readsOnly_of_standard found other

/-- Other words call the same filter with the editor and without. -/
theorem filterAt_readers
    {word : String}
    (other : word ∉ editorWords)
    (tree : FileTree) :
    filterAt readers tree word = filterAt Filters.standard tree word := by
  have same : ∀ name, name ≠ "sed" → readers name = Filters.standard name :=
    fun name differs => if_neg differs
  obtain ⟨bare, others⟩ := not_or.mp (List.mem_cons.not.mp other)
  have named :
      ∀ names : List String, (∀ name ∈ names, name ≠ "sed") →
        names.findSome? readers = names.findSome? Filters.standard := by
    intro names differs
    induction names with
    | nil => rfl
    | cons name rest ih =>
        obtain ⟨first, later⟩ := List.forall_mem_cons.mp differs
        rw [List.findSome?_cons, List.findSome?_cons, same name first, ih later]
  unfold filterAt
  simp only
  split
  next =>
    rw [named]
    intro name listed editor
    obtain ⟨directory, member, found⟩ := List.mem_filterMap.mp listed
    split at found
    next begins =>
      obtain ⟨rest, whole⟩ := List.isPrefixOf_iff_prefix.mp begins
      refine others (List.mem_map.mpr ⟨directory, member, ?_⟩)
      rw [← whole, ← String.length_toList, List.drop_left, editor] at found
      rw [← String.toList_inj, String.toList_append, ← whole, ← Option.some.inj found,
        String.toList_ofList]
    next => cases found
  next => rw [same word bare]

/-- A command that does not call the editor formats the same with it and without. -/
theorem formatted_readers
    {command : String}
    (other : ∀ word ∈ (Text.words command).head?, word ∉ editorWords)
    (text : String) :
    formatted readers command text = formatted Filters.standard command text := by
  unfold formatted
  split
  next => rfl
  next name words spelled =>
    have free : name ∉ editorWords := other name (by rw [spelled]; rfl)
    simp only [filterAt_readers free]

/--
What a conversion delivers or spares does not depend on the formatter, as long as the
command does not call the editor, which can write files of its own.
-/
theorem standard_all_or_nothing
    (input output : Path)
    {options : Options}
    (other :
      ∀ command ∈ options.formatter, ∀ word ∈ (Text.words command).head?, word ∉ editorWords)
    (before : World) :
    match outcome (convert Filters.standard input output options) before with
    | (.error _, after) => Spared output before.tree after.tree
    | (.ok (), after) =>
        ∃ text,
          (outcome (componentText Filters.standard input options) before).1 = .ok text ∧
            Delivered output text before.tree after.tree := by
  have text :
      componentText Filters.standard input options = componentText readers input options := by
    unfold componentText
    cases asked : options.formatter with
    | none => rfl
    | some command => simp only [formatted_readers (other command (by rw [asked]; rfl))]
  have whole : convert Filters.standard input output options = convert readers input output options := by
    unfold convert
    rw [text]
  rw [whole, text]
  split
  next failed => exact convert_spared leavesFiles_readers failed
  next ran => exact convert_delivered leavesFiles_readers ran

end Ending

end SceneMarkup.Job
