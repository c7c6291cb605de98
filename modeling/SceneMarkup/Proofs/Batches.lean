import SceneMarkup.Filters.Translate
import SceneMarkup.Job.Batch
import SceneMarkup.Proofs.Delivery

namespace SceneMarkup.Files.FileTree

/-- A path that leads elsewhere than some others. -/
def Apart (tree : FileTree) (path : Path) (others : List Path) : Prop :=
  ∀ other ∈ others, tree.destination path ≠ tree.destination other

instance (tree : FileTree) (path : Path) (others : List Path) :
    Decidable (Apart tree path others) :=
  inferInstanceAs (Decidable (∀ other ∈ others, tree.destination path ≠ tree.destination other))

/-- Paths that lead apart lead apart in a tree that has grown. -/
theorem Grows.apart
    {before after : FileTree}
    (grows : Grows before after)
    {path : Path}
    {others : List Path}
    (apart : Apart before path others) :
    Apart after path others := by
  intro other member
  rw [grows.destination, grows.destination]
  exact apart other member

/-- What stands at a place is shown by every path that leads there. -/
theorem content?_of_destination
    {before after : FileTree}
    (grows : Grows before after)
    {path other : Path}
    {old entry : Entry}
    (known : before.content? path = some old)
    (shown : after.content? other = some entry)
    (same : before.destination path = before.destination other) :
    after.content? path = some entry := by
  obtain ⟨place, leads, _⟩ := content?_eq_some_iff.mp known
  obtain ⟨spot, found, standing⟩ := content?_eq_some_iff.mp shown
  have meets : place = spot := by
    rw [locate_eq_destination leads, same, locate_eq_destination found, grows.destination]
  subst meets
  exact content?_eq_some_iff.mpr ⟨place, grows.locate leads, standing⟩

end SceneMarkup.Files.FileTree

namespace SceneMarkup.Job

open Files (Entry FileTree OsError Path)
open Files.FileTree (Apart DiffersAt Extends Grows)
open Filters (Filter FilterTable)
open Work

/-!
# What a batch delivers

The assets of a batch are converted one after another into directories that they
share.  Each leaves its component and its copy behind, and they stay as long as no
later asset writes there; a later asset is converted from what it was as long as no
earlier one wrote to it.
-/

/-- What a batch does for one asset. -/
structure Errand where
  input : Path
  options : Options
  output : Path
  /-- Where the asset is copied to. -/
  copy : Path

namespace Errand

/-- What a batch is to do for an asset, if its settings and its name allow it. -/
def ofAsset? (place : BatchPlace) (asset : BatchAsset) : Option Errand := do
  let options ← place.options.merged? asset.options
  let copy ← copyTarget? (place.input asset) place.publicDirectory
  return ⟨place.input asset, options, place.output asset options, copy⟩

/-- The paths that a conversion writes to. -/
def outputs (errand : Errand) : List Path :=
  [temporaryPath errand.output, errand.output]

/-- The files that the component is made from. -/
def sources (errand : Errand) (tree : FileTree) : List Path :=
  Job.sources tree errand.input errand.options

/-- An errand that can be read in full and does not write over what it still needs. -/
structure Sound (tree : FileTree) (errand : Errand) : Prop where
  readable : ∀ source ∈ errand.sources tree, (tree.read source).isOk = true
  input : Apart tree errand.input errand.outputs
  copy : tree.destination errand.copy ≠ tree.destination errand.output

instance (tree : FileTree) (errand : Errand) : Decidable (errand.Sound tree) :=
  decidable_of_iff
    ((∀ source ∈ errand.sources tree, (tree.read source).isOk = true) ∧
      Apart tree errand.input errand.outputs ∧
      tree.destination errand.copy ≠ tree.destination errand.output)
    ⟨fun ⟨readable, input, copy⟩ => ⟨readable, input, copy⟩,
      fun sound => ⟨sound.readable, sound.input, sound.copy⟩⟩

/-- An errand that neither writes to what a later one reads nor has what it wrote written over. -/
structure Leaves (tree : FileTree) (errand later : Errand) : Prop where
  outputs : ∀ source ∈ later.sources tree, Apart tree source errand.outputs
  sources :
    ∀ source ∈ later.sources tree,
      tree.destination source = tree.destination errand.copy →
        tree.content? source = tree.content? errand.input
  output : Apart tree errand.output (later.copy :: later.outputs)
  copy : Apart tree errand.copy later.outputs
  /-- Two files may be copied to the same place if they are the same. -/
  copies :
    tree.destination errand.copy = tree.destination later.copy →
      tree.content? errand.input = tree.content? later.input

instance (tree : FileTree) (errand later : Errand) : Decidable (errand.Leaves tree later) :=
  decidable_of_iff
    ((∀ source ∈ later.sources tree, Apart tree source errand.outputs) ∧
      (∀ source ∈ later.sources tree,
        tree.destination source = tree.destination errand.copy →
          tree.content? source = tree.content? errand.input) ∧
      Apart tree errand.output (later.copy :: later.outputs) ∧
      Apart tree errand.copy later.outputs ∧
      (tree.destination errand.copy = tree.destination later.copy →
        tree.content? errand.input = tree.content? later.input))
    ⟨fun ⟨outputs, sources, output, copy, copies⟩ => ⟨outputs, sources, output, copy, copies⟩,
      fun leaves =>
        ⟨leaves.outputs, leaves.sources, leaves.output, leaves.copy, leaves.copies⟩⟩

/-- Every source of a sound errand can be read. -/
theorem Sound.shown
    {tree : FileTree}
    {errand : Errand}
    (sound : errand.Sound tree)
    {source : Path}
    (listed : source ∈ errand.sources tree) :
    ∃ bytes, tree.content? source = some (.file bytes) := by
  have reads := sound.readable source listed
  cases read : tree.read source with
  | error => rw [read] at reads; cases reads
  | ok bytes => exact ⟨bytes, FileTree.content?_eq_file_iff.mpr read⟩

/-- An errand whose component and copy stand where they belong. -/
structure Done (filters : FilterTable) (before : World) (after : FileTree) (errand : Errand) :
    Prop where
  component :
    ∃ text,
      (outcome (componentText filters errand.input errand.options) before).1 = .ok text ∧
        after.read errand.output = .ok text.toUTF8
  copied :
    ∃ bytes, before.tree.read errand.input = .ok bytes ∧ after.read errand.copy = .ok bytes

/-- What one errand does to a world. -/
structure Carried (filters : FilterTable) (errand : Errand) (world after : World) : Prop where
  grows : Grows world.tree after.tree
  component :
    ∃ text,
      (outcome (componentText filters errand.input errand.options) world).1 = .ok text ∧
        after.tree.content? errand.output = some (.file text.toUTF8)
  copied : after.tree.content? errand.copy = world.tree.content? errand.input
  kept :
    ∀ path bytes,
      world.tree.content? path = some (.file bytes) →
        Apart world.tree path errand.outputs →
          (world.tree.destination path = world.tree.destination errand.copy →
              world.tree.content? errand.input = some (.file bytes)) →
            after.tree.content? path = some (.file bytes)

end Errand

/-- Filters that depend on nothing but their words and their text, and write no files. -/
def IsPure (filters : FilterTable) : Prop :=
  ∀ name filter,
    filters name = some filter →
      ∀ words text,
        ∃ result, result.changes = [] ∧ ∀ tree, filter tree words text = result

namespace IsPure

variable {filters : FilterTable}

/-- Pure filters write no files. -/
theorem leavesFiles
    (pure : IsPure filters) :
    LeavesFiles filters := by
  intro name filter found tree words text
  obtain ⟨result, quiet, same⟩ := pure name filter found words text
  rw [same tree, quiet]

/-- Pure filters cannot tell two trees apart. -/
theorem blind
    (pure : IsPure filters)
    (first second : FileTree) :
    Blind filters first second := by
  intro name filter found words text
  obtain ⟨result, quiet, same⟩ := pure name filter found words text
  rw [same first, same second]
  exact ⟨quiet, rfl⟩

end IsPure

section Copying

/-- A question that is answered leaves the world as it was. -/
theorem ask_succeeds
    {path : Path}
    {question : FileTree → Except OsError α}
    {world after : World}
    {answer : α}
    (ran : outcome (ask path question) world = (.ok answer, after)) :
    question world.tree = .ok answer ∧ after = world := by
  rw [outcome_ask] at ran
  cases replied : question world.tree with
  | error error =>
      rw [replied] at ran
      cases ran
  | ok value =>
      rw [replied] at ran
      cases ran
      exact ⟨rfl, rfl⟩

/-- A target is up to date only if it has the bytes of its source. -/
theorem isUpToDate_spec
    {source target : Path}
    {world after : World}
    {current : Bool}
    (ran : outcome (isUpToDate source target) world = (.ok current, after)) :
    after = world ∧
      (current = true →
        ∃ bytes, world.tree.read target = .ok bytes ∧ world.tree.read source = .ok bytes) := by
  unfold isUpToDate at ran
  obtain ⟨own, middle, taken, looked⟩ := bind_succeeds.mp ran
  cases taken
  split at looked
  · obtain ⟨standing, middle, asked, compared⟩ := bind_succeeds.mp looked
    obtain ⟨stands, rfl⟩ := ask_succeeds asked
    obtain ⟨coming, later, replied, told⟩ := bind_succeeds.mp compared
    obtain ⟨comes, rfl⟩ := ask_succeeds replied
    cases told
    refine ⟨rfl, fun same => ⟨standing, stands, ?_⟩⟩
    rw [ByteArray.ext (beq_iff_eq.mp same)]
    exact comes
  · cases looked
    exact ⟨rfl, fun same => by cases same⟩

/-- A copy is byte for byte what it was made from, whether it had to be made or not. -/
theorem copyIfChanged_copies
    {source directory : Path}
    {world after : World}
    (ran : outcome (copyIfChanged source directory) world = (.ok (), after)) :
    ∃ target bytes,
      copyTarget? source directory = some target ∧
        world.tree.content? source = some (.file bytes) ∧
        after.tree.content? target = some (.file bytes) ∧
        DiffersAt (world.tree.destination target) world.tree after.tree := by
  unfold copyIfChanged at ran
  split at ran
  · cases ran
  next target named =>
    obtain ⟨current, middle, checked, done⟩ := bind_succeeds.mp ran
    obtain ⟨rfl, standing⟩ := isUpToDate_spec checked
    split at done
    next fresh =>
      obtain ⟨bytes, stands, comes⟩ := standing fresh
      cases done
      exact ⟨target, bytes, named, FileTree.content?_eq_file_iff.mpr comes,
        FileTree.content?_eq_file_iff.mpr stands, DiffersAt.refl _ _⟩
    next =>
      obtain ⟨_, later, copied, told⟩ := bind_succeeds.mp done
      cases told
      obtain ⟨bytes, reading, asked, written⟩ := bind_succeeds.mp copied
      obtain ⟨comes, rfl⟩ := ask_succeeds asked
      have ends := writes_outcome target bytes reading
      rw [written] at ends
      cases ends with
      | done accepted =>
          obtain ⟨spot, leads, plain, rfl⟩ := FileTree.write_spec accepted
          refine ⟨target, bytes, named, FileTree.content?_eq_file_iff.mpr comes,
            content?_put leads plain, ?_⟩
          rw [← FileTree.locate_eq_destination leads]
          exact DiffersAt.put plain bytes

end Copying

section Running

variable {filters : FilterTable} {place : BatchPlace} {errand : Errand}

/-- A change that succeeds is one step of the tree. -/
theorem change_succeeds
    {path : Path}
    {step : FileTree → Except OsError FileTree}
    {world after : World}
    (ran : outcome (change path step) world = (.ok (), after)) :
    ∃ tree, step world.tree = .ok tree ∧ after = { world with tree := tree } := by
  rw [outcome_change] at ran
  cases made : step world.tree with
  | error error =>
      rw [made] at ran
      cases ran
  | ok tree =>
      rw [made] at ran
      cases ran
      exact ⟨tree, rfl, rfl⟩

/-- Options that were overlaid are merged, and nothing else has happened. -/
theorem overlaid_succeeds
    {options merged : Options}
    {overlay : Json.Members}
    {world after : World}
    (ran : outcome (overlaid options overlay) world = (.ok merged, after)) :
    options.merged? overlay = some merged ∧ after = world := by
  unfold overlaid at ran
  split at ran
  next found =>
    cases ran
    exact ⟨found, rfl⟩
  next => cases ran

/-- A component comes out the same wherever its sources are the same. -/
theorem componentText_of_same
    (pure : IsPure filters)
    {before world : World}
    {text : String}
    (same :
      ∀ source ∈ errand.sources before.tree,
        world.tree.content? source = before.tree.content? source)
    (made :
      (outcome (componentText filters errand.input errand.options) world).1 = .ok text) :
    (outcome (componentText filters errand.input errand.options) before).1 = .ok text := by
  have alike := componentText_alike (pure.blind before.tree world.tree) same
  have results := (alike before world rfl rfl).1
  rw [made] at results
  cases own : (outcome (componentText filters errand.input errand.options) before).1 with
  | error failure =>
      rw [own] at results
      cases results
  | ok value =>
      rw [own] at results
      cases results
      rfl

/-- One asset of a batch is carried out, and every file that it does not write to stays. -/
theorem runAsset_carries
    (pure : IsPure filters)
    {asset : BatchAsset}
    {world after : World}
    (ran : outcome (runAsset filters place asset) world = (.ok (), after)) :
    ∃ errand,
      Errand.ofAsset? place asset = some errand ∧
        (errand.Sound world.tree → errand.Carried filters world after) := by
  obtain ⟨options, begun, overlay, reporting⟩ := bind_succeeds.mp ran
  obtain ⟨_, told, reported, preparing⟩ := bind_succeeds.mp reporting
  obtain ⟨_, prepared, made, converting⟩ := bind_succeeds.mp preparing
  obtain ⟨_, converted, delivering, serving⟩ := bind_succeeds.mp converting
  obtain ⟨_, served, opened, copying⟩ := bind_succeeds.mp serving
  obtain ⟨merged, rfl⟩ := overlaid_succeeds overlay
  cases reported
  obtain ⟨ready, creates, rfl⟩ := change_succeeds made
  obtain ⟨text, texts, delivered⟩ := convert_delivered pure.leavesFiles delivering
  obtain ⟨shown, opens, rfl⟩ := change_succeeds opened
  obtain ⟨copy, bytes, target, comes, stands, differs⟩ := copyIfChanged_copies copying
  have first := FileTree.createDirectories_extends creates
  have third := FileTree.createDirectories_extends opens
  refine ⟨⟨place.input asset, options, place.output asset options, copy⟩, ?_, fun sound => ?_⟩
  · rw [Errand.ofAsset?, merged, target]
    rfl
  have toServed : Grows begun.tree shown :=
    (first.grows.trans delivered.grows).trans third.grows
  have kept :
      ∀ path held,
        begun.tree.content? path = some (.file held) →
          Apart begun.tree path [temporaryPath (place.output asset options), place.output asset options] →
            shown.content? path = some (.file held) := by
    intro path held known apart
    have early := first.content? known
    rw [← delivered.elsewhere path] at early
    · exact third.content? early
    · rw [first.grows.destination, first.grows.destination]
      exact apart _ List.mem_cons_self
    · rw [first.grows.destination, first.grows.destination]
      exact apart _ (List.mem_cons_of_mem _ List.mem_cons_self)
  obtain ⟨original, known⟩ := sound.shown List.mem_cons_self
  have copied := kept _ _ known sound.input
  rw [comes] at copied
  cases copied
  refine ⟨toServed.trans differs.grows, ⟨text, ?_, ?_⟩, stands.trans known.symm, ?_⟩
  · refine componentText_of_same pure (fun source listed => ?_) texts
    obtain ⟨held, readable⟩ := sound.shown listed
    rw [readable]
    exact first.content? readable
  · rw [differs.content?_eq]
    · exact third.content? delivered.target
    · rw [toServed.destination, toServed.destination]
      exact sound.copy.symm
  · intro path held standing apart meets
    by_cases same : begun.tree.destination path = begun.tree.destination copy
    · have whole := meets same
      rw [known] at whole
      cases whole
      refine FileTree.content?_of_destination differs.grows (kept path _ standing apart) stands ?_
      rw [toServed.destination, toServed.destination]
      exact same
    · rw [differs.content?_eq]
      · exact kept path held standing apart
      · rw [toServed.destination, toServed.destination]
        exact same

/-- The errands of some assets. -/
def errandsOf (place : BatchPlace) (assets : List BatchAsset) : List Errand :=
  assets.filterMap (Errand.ofAsset? place)

/-- A tree in which no asset of a batch gets in the way of another. -/
structure Undisturbed (tree : FileTree) (errands : List Errand) : Prop where
  sound : ∀ errand ∈ errands, errand.Sound tree
  apart : errands.Pairwise (Errand.Leaves tree)

instance (tree : FileTree) (errands : List Errand) : Decidable (Undisturbed tree errands) :=
  decidable_of_iff
    ((∀ errand ∈ errands, errand.Sound tree) ∧ errands.Pairwise (Errand.Leaves tree))
    ⟨fun ⟨sound, apart⟩ => ⟨sound, apart⟩,
      fun undisturbed => ⟨undisturbed.sound, undisturbed.apart⟩⟩

/-- A world in which the sources of some errands are what they were. -/
structure Awaits (before world : FileTree) (errands : List Errand) : Prop where
  grows : Grows before world
  sources :
    ∀ errand ∈ errands,
      ∀ source ∈ errand.sources before, world.content? source = before.content? source

/-- An errand has the same sources wherever its input is the same. -/
theorem sources_eq
    {before world : FileTree}
    (same : world.content? errand.input = before.content? errand.input) :
    errand.sources world = errand.sources before := by
  unfold Errand.sources sources
  rw [FileTree.toOption_read, FileTree.toOption_read, same]

/-- An errand that was sound at first still is if its sources are what they were. -/
theorem Errand.Sound.later
    {before world : FileTree}
    (sound : errand.Sound before)
    (grows : Grows before world)
    (same : ∀ source ∈ errand.sources before, world.content? source = before.content? source) :
    errand.Sound world := by
  have listed := sources_eq (same _ List.mem_cons_self)
  refine ⟨fun source member => ?_, grows.apart sound.input, ?_⟩
  · rw [listed] at member
    have reads := same source member
    obtain ⟨bytes, shown⟩ := sound.shown member
    rw [shown] at reads
    rw [FileTree.content?_eq_file_iff.mp reads]
    rfl
  · rw [grows.destination, grows.destination]
    exact sound.copy

/-- What an errand keeps, told by what there was before the batch. -/
theorem Errand.Carried.keeps
    {before : FileTree}
    {world after : World}
    (carried : errand.Carried filters world after)
    (grows : Grows before world.tree)
    (same : world.tree.content? errand.input = before.content? errand.input)
    {path : Path}
    {held : ByteArray}
    (known : world.tree.content? path = some (.file held))
    (apart : Apart before path errand.outputs)
    (meets :
      before.destination path = before.destination errand.copy →
        before.content? errand.input = some (.file held)) :
    after.tree.content? path = some (.file held) := by
  refine carried.kept path held known (grows.apart apart) fun together => ?_
  rw [grows.destination, grows.destination] at together
  rw [same]
  exact meets together

/-- Where every handler fails a run that succeeds has not failed. -/
theorem runAsset_of_caught
    {asset : BatchAsset}
    {handler : Failure → Work Unit}
    {world after : World}
    (fails : ∀ failure own, ∃ fault later, outcome (handler failure) own = (.error fault, later))
    (ran : outcome (tryCatch (runAsset filters place asset) handler) world = (.ok (), after)) :
    outcome (runAsset filters place asset) world = (.ok (), after) := by
  rw [outcome_tryCatch] at ran
  rcases done : outcome (runAsset filters place asset) world with ⟨failure | ⟨⟩, middle⟩
  · rw [done] at ran
    obtain ⟨fault, later, failed⟩ := fails failure middle
    simp only [failed] at ran
    cases ran
  · rw [done] at ran
    exact ran

/-- A whole batch keeps every file that none of its assets writes to. -/
theorem runAssets_carries
    (pure : IsPure filters)
    {before : World}
    (assets : List BatchAsset)
    {world after : World}
    (undisturbed : Undisturbed before.tree (errandsOf place assets))
    (awaits : Awaits before.tree world.tree (errandsOf place assets))
    (ran : outcome (runAssets filters place assets) world = (.ok (), after)) :
    (∀ asset ∈ assets,
      ∃ errand, Errand.ofAsset? place asset = some errand ∧ errand.Done filters before after.tree) ∧
      ∀ path held,
        world.tree.content? path = some (.file held) →
          (∀ errand ∈ errandsOf place assets,
            Apart before.tree path errand.outputs ∧
              (before.tree.destination path = before.tree.destination errand.copy →
                before.tree.content? errand.input = some (.file held))) →
            after.tree.content? path = some (.file held) := by
  induction assets generalizing world with
  | nil =>
      cases ran
      exact ⟨fun _ member => absurd member List.not_mem_nil, fun _ _ known _ => known⟩
  | cons asset rest ih =>
      obtain ⟨_, middle, caught, going⟩ := bind_succeeds.mp ran
      have first := runAsset_of_caught (fun _ _ => ⟨_, _, rfl⟩) caught
      obtain ⟨errand, planned, carries⟩ := runAsset_carries pure first
      have listed : errandsOf place (asset :: rest) = errand :: errandsOf place rest :=
        List.filterMap_cons_some planned
      rw [listed] at undisturbed awaits ⊢
      have same := awaits.sources errand List.mem_cons_self
      have sound := undisturbed.sound errand List.mem_cons_self
      have carried := carries (sound.later awaits.grows same)
      have sameInput := same _ List.mem_cons_self
      obtain ⟨leaves, others⟩ := List.pairwise_cons.mp undisturbed.apart
      have next : Awaits before.tree middle.tree (errandsOf place rest) := by
        refine ⟨awaits.grows.trans carried.grows, fun later member source read => ?_⟩
        have leave := leaves later member
        obtain ⟨held, known⟩ :=
          (undisturbed.sound later (List.mem_cons_of_mem _ member)).shown read
        have waiting := awaits.sources later (List.mem_cons_of_mem _ member) source read
        rw [known] at waiting ⊢
        refine carried.keeps awaits.grows sameInput waiting (leave.outputs source read) fun meets => ?_
        rw [← leave.sources source read meets]
        exact known
      obtain ⟨dones, keeps⟩ := ih
        ⟨fun later member => undisturbed.sound later (List.mem_cons_of_mem _ member), others⟩
        next going
      refine ⟨fun own member => ?_, fun path held known spared => ?_⟩
      · rcases List.mem_cons.mp member with rfl | member
        · obtain ⟨text, made, stands⟩ := carried.component
          obtain ⟨bytes, comes⟩ := sound.shown List.mem_cons_self
          have copied := carried.copied
          rw [sameInput, comes] at copied
          refine ⟨errand, planned, ⟨text, componentText_of_same pure same made, ?_⟩, bytes, ?_, ?_⟩
          · refine FileTree.content?_eq_file_iff.mp (keeps _ _ stands fun later member => ?_)
            have leave := leaves later member
            exact ⟨fun other place => leave.output other (List.mem_cons_of_mem _ place),
              fun meets => absurd meets (leave.output _ List.mem_cons_self)⟩
          · exact FileTree.content?_eq_file_iff.mp comes
          · refine FileTree.content?_eq_file_iff.mp (keeps _ _ copied fun later member => ?_)
            have leave := leaves later member
            exact ⟨leave.copy, fun meets => (leave.copies meets).symm.trans comes⟩
        · exact dones own member
      · obtain ⟨apart, meets⟩ := spared errand List.mem_cons_self
        exact keeps path held (carried.keeps awaits.grows sameInput known apart meets)
          fun later member => spared later (List.mem_cons_of_mem _ member)

/-- The errands of the batch whose configuration stands at a path. -/
def errandsAt (tree : FileTree) (path : Path) : List Errand :=
  match (readText path tree).toOption.bind BatchConfig.ofText? with
  | none => []
  | some config =>
      match ({} : Options).merged? config.options with
      | none => []
      | some options => errandsOf (.ofConfig path config options) config.assets

/-- A list of errands that was loaded is the one that the file spells. -/
theorem loadConfig_succeeds
    {path : Path}
    {config : BatchConfig}
    {world after : World}
    (ran : outcome (loadConfig path) world = (.ok config, after)) :
    (readText path world.tree).toOption.bind BatchConfig.ofText? = some config ∧
      after = world := by
  obtain ⟨text, read, asked, parsed⟩ := bind_succeeds.mp ran
  obtain ⟨reads, rfl⟩ := ask_succeeds asked
  split at parsed
  next found =>
    cases parsed
    rw [reads]
    exact ⟨found, rfl⟩
  next => cases parsed

/-- A batch that succeeds has delivered the component and the copy of every asset, unless one asset
gets in the way of another. -/
theorem runBatch_delivers
    (pure : IsPure filters)
    {path : Path}
    {before after : World}
    {count : Nat}
    (undisturbed : Undisturbed before.tree (errandsAt before.tree path))
    (ran : outcome (runBatch filters path) before = (.ok count, after)) :
    ∃ config options,
      (outcome (loadConfig path) before).1 = .ok config ∧
        ({} : Options).merged? config.options = some options ∧
        count = config.assets.length ∧
        ∀ asset ∈ config.assets,
          ∃ errand,
            Errand.ofAsset? (.ofConfig path config options) asset = some errand ∧
              errand.Done filters before after.tree := by
  obtain ⟨config, read, loaded, laying⟩ := bind_succeeds.mp ran
  obtain ⟨options, laid, overlay, reporting⟩ := bind_succeeds.mp laying
  obtain ⟨_, told, reported, running⟩ := bind_succeeds.mp reporting
  obtain ⟨_, last, carried, closing⟩ := bind_succeeds.mp running
  obtain ⟨found, rfl⟩ := loadConfig_succeeds loaded
  obtain ⟨merged, rfl⟩ := overlaid_succeeds overlay
  cases closing
  have unchanged : told.tree = laid.tree := by
    cases reported
    rfl
  have errands :
      errandsAt laid.tree path = errandsOf (.ofConfig path config options) config.assets := by
    rw [errandsAt, found]
    simp only [merged]
  rw [errands] at undisturbed
  have awaits :
      Awaits laid.tree told.tree (errandsOf (.ofConfig path config options) config.assets) := by
    rw [unchanged]
    exact ⟨Grows.refl _, fun _ _ _ _ => rfl⟩
  have delivered := runAssets_carries pure config.assets undisturbed awaits carried
  exact ⟨config, options, by rw [loaded], merged, rfl, delivered.1⟩

/-- The one filter that translates its text. -/
def translatingFilter : FilterTable :=
  fun name => if name = "tr" then some Filters.translate else none

/-- The filter that translates is pure. -/
theorem isPure_translatingFilter : IsPure translatingFilter := by
  intro name filter found words text
  unfold translatingFilter at found
  split at found
  · cases found
    refine ⟨Filters.translate ⟨[], []⟩ words text, ?_, fun _ => rfl⟩
    unfold Filters.translate
    split
    · rfl
    · simp only
      split
      · rfl
      · split <;> rfl
  · cases found

/-- Two assets of different names, and the configuration of a batch of both. -/
def rooms : World where
  tree :=
    { entries := [
        (["batch.json"], .file
          ("\x7b\"srcDir\":\"src\",\"publicDir\":\"public\",\"assets\":["
            ++ "\x7b\"gltf\":\"hall.gltf\",\"className\":\"Hall\"\x7d,"
            ++ "\x7b\"gltf\":\"yard.gltf\",\"className\":\"Yard\"\x7d]\x7d").toUTF8),
        (["hall.gltf"], .file emptyAsset.toUTF8),
        (["yard.gltf"], .file (emptyAsset ++ " ").toUTF8)]
      home := [] }

/-- Both components and both copies are delivered. -/
theorem runBatch_delivers_rooms :
    Undisturbed rooms.tree (errandsAt rooms.tree ⟨"batch.json"⟩) ∧
      ∃ after,
        outcome (runBatch translatingFilter ⟨"batch.json"⟩) rooms = (.ok 2, after) ∧
          ∃ config options,
            (outcome (loadConfig ⟨"batch.json"⟩) rooms).1 = .ok config ∧
              ({} : Options).merged? config.options = some options ∧
              2 = config.assets.length ∧
              ∀ asset ∈ config.assets,
                ∃ errand,
                  Errand.ofAsset? (.ofConfig ⟨"batch.json"⟩ config options) asset = some errand ∧
                    errand.Done translatingFilter rooms after.tree := by
  have undisturbed : Undisturbed rooms.tree (errandsAt rooms.tree ⟨"batch.json"⟩) := by
    decide +kernel
  have succeeds :
      (outcome (runBatch translatingFilter ⟨"batch.json"⟩) rooms).1.toOption = some 2 := by
    decide +kernel
  refine ⟨undisturbed, ?_⟩
  rcases run : outcome (runBatch translatingFilter ⟨"batch.json"⟩) rooms with ⟨failure | count, after⟩
  · rw [run] at succeeds
    cases succeeds
  · rw [run] at succeeds
    cases succeeds
    exact ⟨after, rfl, runBatch_delivers isPure_translatingFilter undisturbed run⟩

/-- Two assets of one name in two directories, and the configuration of a batch of both. -/
def namesakes : World where
  tree :=
    { entries := [
        (["batch.json"], .file
          ("\x7b\"srcDir\":\"src\",\"publicDir\":\"public\",\"assets\":["
            ++ "\x7b\"gltf\":\"east/hall.gltf\",\"className\":\"East\"\x7d,"
            ++ "\x7b\"gltf\":\"west/hall.gltf\",\"className\":\"West\"\x7d]\x7d").toUTF8),
        (["east"], .directory),
        (["west"], .directory),
        (["east", "hall.gltf"], .file emptyAsset.toUTF8),
        (["west", "hall.gltf"], .file (emptyAsset ++ " ").toUTF8)]
      home := [] }

/-- The batch of two assets of one name succeeds, and the first of them is served nowhere: the copy
of the second stands in its place. -/
theorem runBatch_loses_namesake :
    let ends := outcome (runBatch translatingFilter ⟨"batch.json"⟩) namesakes
    ends.1.toOption = some 2 ∧
      ends.2.tree.content? ⟨"public/hall.gltf"⟩ ≠ namesakes.tree.content? ⟨"east/hall.gltf"⟩ := by
  decide +kernel

end Running

end SceneMarkup.Job
