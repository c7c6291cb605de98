import SceneMarkup.Proofs.Delivery
import SceneMarkup.Proofs.Hooks

namespace SceneMarkup.Job

open Component (HookCall hookCalls readable? assetAddress)
open Files (Path)
open Filters (FilterTable)
open Markup (BreaksLine IsLineBreak)
open Work

/-!
# Where a component loads its asset from

A component loads the path under which its asset is served, from the root of what
is served.  A path that looks like an address on another host is the exception:
it is loaded as it is, although the asset stands in a file here.
-/

section Addresses

/-- The path is taken for an address on another host. -/
def LooksRemote (path : String) : Prop :=
  ['h', 't', 't', 'p'] <+: path.toList.map Char.toLower

instance (path : String) : Decidable (LooksRemote path) :=
  inferInstanceAs (Decidable (_ <+: _))

/-- An asset is addressed from the top of the server unless its path looks remote. -/
theorem assetAddress_eq
    (path : String) :
    assetAddress path = if LooksRemote path then path else "/" ++ path := by
  have same : ((path.toList.map Char.toLower).take 4 == ['h', 't', 't', 'p']) = true ↔
      LooksRemote path := by
    rw [beq_iff_eq, LooksRemote, List.prefix_iff_eq_take]
    exact eq_comm
  simp only [assetAddress, same]

/-- A slash in front breaks no line. -/
theorem breaksLine_rooted
    (path : String) :
    BreaksLine ("/" ++ path).toList ↔ BreaksLine path.toList := by
  have slash : ¬ IsLineBreak '/' := by
    decide
  simp [BreaksLine, slash]

/-- A path is loaded from the root unless it looks remote or takes more than one line. -/
theorem readable?_eq_rooted_iff
    (path : String) :
    readable? (assetAddress path) = some ("/" ++ path) ↔
      ¬ LooksRemote path ∧ ¬ BreaksLine path.toList := by
  simp only [assetAddress_eq, readable?, Component.any_isLineBreak_iff]
  split
  next remote =>
    have longer : path ≠ "/" ++ path := by
      intro same
      have lengths := congrArg String.length same
      rw [String.length_append] at lengths
      have slash : "/".length = 1 := rfl
      omega
    simp [remote, longer]
  next rooted =>
    simp only [breaksLine_rooted]
    simp [rooted]

end Addresses

section Calls

variable {filters : FilterTable} {input : Path} {options : Options} {before after : World}
  {text : String}

/-- A component whose text is made loads the address of its served path. -/
theorem exists_hookCalls
    (plain : options.formatter = none)
    (made : outcome (componentText filters input options) before = (.ok text, after)) :
    ∃ times ∈ [1, 2],
      hookCalls text =
        List.replicate times (.loads (readable? (assetAddress (servedPath input options))))
          ++ [.preloads (readable? (assetAddress (servedPath input options)))] := by
  unfold componentText at made
  obtain ⟨bytes, _, _, made⟩ := bind_succeeds.mp made
  obtain ⟨loaded, _, _, made⟩ := bind_succeeds.mp made
  obtain ⟨⟨graph, merged⟩, _, _, made⟩ := bind_succeeds.mp made
  obtain ⟨written, _, writes, made⟩ := bind_succeeds.mp made
  rw [plain] at made
  cases made
  unfold writeComponent at writes
  obtain ⟨_, _, _, gives⟩ := bind_succeeds.mp writes
  cases converted : (Component.convert (servedPath input options) graph
      { options with size := some (sizeLine (input.fileName?.getD "") bytes merged) }).result with
  | error fault =>
      rw [converted] at gives
      cases gives
  | ok result =>
      rw [converted] at gives
      cases gives
      exact Component.exists_hookCalls converted

/--
All calls of a component whose text is made without a formatter load the same: the
path under which the asset is served, from the root, unless this path looks remote
or takes more than one line.  A component with instances loads twice.
-/
theorem componentText_loads_served
    (plain : options.formatter = none)
    (made : outcome (componentText filters input options) before = (.ok text, after)) :
    let served := servedPath input options
    let argument := readable? (if LooksRemote served then served else "/" ++ served)
    (∃ times ∈ [1, 2],
        hookCalls text = List.replicate times (.loads argument) ++ [.preloads argument]) ∧
      (argument = some ("/" ++ served) ↔ ¬ LooksRemote served ∧ ¬ BreaksLine served.toList) := by
  intro served argument
  have address : argument = readable? (assetAddress served) := by
    rw [assetAddress_eq]
  rw [address]
  exact ⟨exists_hookCalls plain made, readable?_eq_rooted_iff served⟩

/-- An asset below a root, and one with a name that looks like an address. -/
def gallery : World where
  tree :=
    { entries := [
        (["public"], .directory),
        (["public", "rooms"], .directory),
        (["public", "rooms", "hall.gltf"], .file emptyAsset.toUTF8),
        (["http.gltf"], .file emptyAsset.toUTF8)]
      home := [] }

theorem componentText_loads_served_gallery :
    let options : Options := { root := some "public" }
    options.formatter = none ∧
      ∃ text after,
        outcome (componentText copyingFilter ⟨"public/rooms/hall.gltf"⟩ options) gallery =
            (.ok text, after) ∧
          ∃ times ∈ [1, 2],
            hookCalls text =
              List.replicate times (.loads (some "/rooms/hall.gltf"))
                ++ [.preloads (some "/rooms/hall.gltf")] := by
  intro options
  have succeeds :
      (outcome (componentText copyingFilter ⟨"public/rooms/hall.gltf"⟩ options)
        gallery).1.isOk = true := by
    decide +kernel
  refine ⟨rfl, ?_⟩
  cases run : outcome (componentText copyingFilter ⟨"public/rooms/hall.gltf"⟩ options) gallery with
  | mk result after =>
      rw [run] at succeeds
      cases result with
      | error failure => cases succeeds
      | ok text =>
          obtain ⟨calls, _⟩ := componentText_loads_served rfl run
          have argument :
              readable? (assetAddress (servedPath ⟨"public/rooms/hall.gltf"⟩ options)) =
                some "/rooms/hall.gltf" := by
            decide +kernel
          rw [assetAddress_eq] at argument
          rw [argument] at calls
          exact ⟨text, after, rfl, calls⟩

/-- A file whose name looks like an address is loaded from wherever its page stands. -/
theorem remote_looking_asset_is_loaded_as_it_is :
    ∃ text after,
      outcome (componentText copyingFilter ⟨"http.gltf"⟩ {}) gallery = (.ok text, after) ∧
        ∃ times ∈ [1, 2],
          hookCalls text =
            List.replicate times (.loads (some "http.gltf")) ++ [.preloads (some "http.gltf")] := by
  have succeeds :
      (outcome (componentText copyingFilter ⟨"http.gltf"⟩ {}) gallery).1.isOk = true := by
    decide +kernel
  cases run : outcome (componentText copyingFilter ⟨"http.gltf"⟩ {}) gallery with
  | mk result after =>
      rw [run] at succeeds
      cases result with
      | error failure => cases succeeds
      | ok text =>
          have calls := exists_hookCalls rfl run
          have argument :
              readable? (assetAddress (servedPath ⟨"http.gltf"⟩ {})) = some "http.gltf" := by
            decide +kernel
          rw [argument] at calls
          exact ⟨text, after, rfl, calls⟩

end Calls

end SceneMarkup.Job
