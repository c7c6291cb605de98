import Mathlib.Data.List.NodupEquivFin
import Mathlib.Data.List.Perm.Subperm
import SceneMarkup.Proofs.BlueprintPlacing
import SceneMarkup.Proofs.Descent
import SceneMarkup.Proofs.FreshNames
import SceneMarkup.Proofs.MergedDrawings

namespace SceneMarkup.Loading

open Blueprint (objects objectsOfAll)
open Scene (SceneGraph NodeId)

/-!
# Names in a loaded graph

Names are reserved in the registry before objects get them, except those of the
copies of a mesh that several nodes draw: a copy has the name of the first object
and the number of its use.  A ledger lists the copies made so far.  The names that
a step shows are among those that it reserves and those of the copies that it
makes, each as often as there, so that only a copy can share its name with an
object that is none.
-/

section Copies

/-- The name of a copy of an object, by the number of its use. -/
def copyName (base : String) (use : Nat) : String :=
  base ++ "_instance_" ++ toString use

/-- What stands after the last of some marks is known, and so is what stands before it. -/
theorem parts_of_marked
    {mark : Char}
    {first second left right : List Char}
    (leftPlain : ∀ character ∈ left, character ≠ mark)
    (rightPlain : ∀ character ∈ right, character ≠ mark)
    (same : first ++ mark :: left = second ++ mark :: right) :
    first = second ∧ left = right := by
  have ahead {before after : List Char} (plain : ∀ character ∈ after, character ≠ mark) :
      (before ++ mark :: after).reverse.takeWhile (· ≠ mark) = after.reverse := by
    rw [List.reverse_append, List.reverse_cons, List.append_assoc,
      List.takeWhile_append_of_pos (by simpa using plain)]
    simp
  have numbers : left.reverse = right.reverse := by
    have early : (first ++ mark :: left).reverse.takeWhile (· ≠ mark) = left.reverse :=
      ahead leftPlain
    rw [← early, same, ahead rightPlain]
  obtain rfl := List.reverse_inj.mp numbers
  exact ⟨List.append_cancel_right same, rfl⟩

/-- No digit is part of the mark before the number. -/
theorem copyName_injective
    {first second : String}
    {left right : Nat}
    (same : copyName first left = copyName second right) :
    first = second ∧ left = right := by
  have digits (number : Nat) : ∀ character ∈ (toString number).toList, character ≠ '_' := by
    rintro _ member rfl
    have listed : '_' ∈ Nat.toDigits 10 number := by
      rwa [Nat.toString_eq_repr, Nat.repr, String.toList_ofList] at member
    exact absurd (Nat.isDigit_of_mem_toDigits (by decide) (by decide) listed) (by decide)
  have marked (base : String) (use : Nat) :
      (copyName base use).toList =
        (base.toList ++ "_instance".toList) ++ '_' :: (toString use).toList := by
    simp [copyName, String.toList_append]
  have lists := congrArg String.toList same
  rw [marked, marked] at lists
  obtain ⟨bases, uses⟩ := parts_of_marked (digits left) (digits right) lists
  refine ⟨String.toList_inj.mp (List.append_cancel_right bases), ?_⟩
  exact Text.toString_injective (String.toList_inj.mp uses)

end Copies

section Given

/-- The names that are not empty are among those shown, each as often as there. -/
def Given (names shown : List String) : Prop :=
  (names.filter (· ≠ "")).Subperm shown

theorem given_nil (shown : List String) : Given [] shown :=
  List.nil_subperm

/-- Names that are all shown are given as they are. -/
theorem given_self (names : List String) : Given names names :=
  List.filter_sublist.subperm

/-- A node without a name needs none of the shown names. -/
theorem given_blank
    {names shown : List String}
    (given : Given names shown) :
    Given ("" :: names) shown := by
  simpa [Given] using given

/-- Leaving out the first node leaves the others with the names they were given. -/
theorem Given.tail
    {first : String}
    {rest shown : List String}
    (given : Given (first :: rest) shown) :
    Given rest shown :=
  ((List.sublist_cons_self first rest).filter _).subperm.trans given

/-- Names of two parts are given out of what both parts show. -/
theorem Given.append
    {names others shown further : List String}
    (given : Given names shown)
    (later : Given others further) :
    Given (names ++ others) (shown ++ further) := by
  rw [Given, List.filter_append]
  exact List.Subperm.append given later

end Given

section Ledger

/-- How often a mesh of several nodes was used so far. -/
def usesOf (registry : Registry) (index : Nat) : Nat :=
  (Registry.find? registry.uses index).getD 0

/-- What is known of a registry when these copies were made and these nodes visited. -/
structure Ledger
    (source : Source)
    (registry : Registry)
    (copies : List (String × Nat))
    (visited : List Nat) :
    Prop where
  taken : registry.taken.Nodup
  kept :
    ∀ index built, Registry.find? registry.meshes index = some built →
      (built.map (·.name)).Nodup ∧ built.map (·.name) ⊆ registry.taken
  apart :
    ∀ first second left right name,
      Registry.find? registry.meshes first = some left →
        Registry.find? registry.meshes second = some right →
          name ∈ left.map (·.name) → name ∈ right.map (·.name) → first = second
  drawn :
    ∀ index built, Registry.find? registry.meshes index = some built →
      ∃ node ∈ visited, (nodeAt source node).mesh = some index
  distinct : copies.Nodup
  numbered :
    ∀ copy ∈ copies,
      ∃ index built, Registry.find? registry.meshes index = some built ∧
        copy.1 ∈ built.map (·.name) ∧ copy.2 < usesOf registry index

/-- Before anything is built no name is taken and no copy was made. -/
theorem ledger_empty (source : Source) : Ledger source {} [] [] where
  taken := List.nodup_nil
  kept index built found := by cases found
  apart first second left right name found := by cases found
  drawn index built found := by cases found
  distinct := List.nodup_nil
  numbered copy member := by cases member

variable {source : Source} {registry : Registry} {copies : List (String × Nat)}
  {visited : List Nat}

/-- Nodes that draw no mesh may be visited without an entry. -/
theorem Ledger.visit
    (ledger : Ledger source registry copies visited)
    (more : List Nat) :
    Ledger source registry copies (visited ++ more) :=
  { ledger with
    drawn := fun index built found => by
      obtain ⟨node, member, draws⟩ := ledger.drawn index built found
      exact ⟨node, List.mem_append_left more member, draws⟩ }

/-- Reserving more names keeps the ledger. -/
theorem Ledger.claim
    (ledger : Ledger source registry copies visited)
    {after : Registry}
    {claims : List String}
    (taken : after.taken = claims ++ registry.taken)
    (fresh : after.taken.Nodup)
    (meshes : after.meshes = registry.meshes)
    (uses : after.uses = registry.uses) :
    Ledger source after copies visited where
  taken := fresh
  kept index built found := by
    rw [meshes] at found
    obtain ⟨different, reserved⟩ := ledger.kept index built found
    refine ⟨different, fun name member => ?_⟩
    rw [taken]
    exact List.mem_append_right claims (reserved member)
  apart := by
    rw [meshes]
    exact ledger.apart
  drawn := by
    rw [meshes]
    exact ledger.drawn
  distinct := ledger.distinct
  numbered := by
    simp only [usesOf, meshes, uses]
    exact ledger.numbered

end Ledger

section Steps

variable {source : Source}

/-- A step reserves names, as many as its value has, and touches neither meshes nor their uses. -/
def Claims (step : Building α) (fits : α → List String → Prop) : Prop :=
  ∀ registry, ∃ claims,
    fits (step.run registry).1 claims ∧
      (step.run registry).2.taken = claims.reverse ++ registry.taken ∧
      (registry.taken.Nodup → (step.run registry).2.taken.Nodup) ∧
      (step.run registry).2.meshes = registry.meshes ∧
      (step.run registry).2.uses = registry.uses

/-- A step that does nothing claims no name. -/
theorem claims_pure
    {value : α}
    {fits : α → List String → Prop}
    (fit : fits value []) :
    Claims (pure value) fits :=
  fun _ => ⟨[], fit, rfl, id, rfl, rfl⟩

/-- Two steps claim what the first claims and then what the second claims. -/
theorem claims_bind
    {step : Building α}
    {next : α → Building β}
    {here : α → List String → Prop}
    {fits : β → List String → Prop}
    (first : Claims step here)
    (later :
      ∀ value claims, here value claims →
        Claims (next value) fun result more => fits result (claims ++ more)) :
    Claims (step >>= next) fits := by
  intro registry
  obtain ⟨claims, fit, taken, fresh, meshes, uses⟩ := first registry
  obtain ⟨more, fitting, takenToo, freshToo, meshesToo, usesToo⟩ := later _ claims fit _
  refine ⟨claims ++ more, fitting, ?_, fun before => freshToo (fresh before),
    meshesToo.trans meshes, usesToo.trans uses⟩
  rw [List.reverse_append, List.append_assoc, ← taken]
  exact takenToo

/-- Asking for a name claims the one that is given. -/
theorem claims_claimName (asked : String) :
    Claims (claimName asked) fun name claims => claims = [name] := by
  intro registry
  refine ⟨_, rfl, rfl, fun before => List.nodup_cons.mpr ⟨?_, before⟩, rfl, rfl⟩
  exact Text.firstFree_not_mem (Text.numbered_injective "_" _)

/-- A step that reserves nothing. -/
theorem claims_aside
    {step : Building α}
    {fits : α → List String → Prop}
    (aside :
      ∀ registry,
        fits (step.run registry).1 [] ∧
          (step.run registry).2.taken = registry.taken ∧
          (step.run registry).2.meshes = registry.meshes ∧
          (step.run registry).2.uses = registry.uses) :
    Claims step fits := by
  intro registry
  obtain ⟨fit, taken, meshes, uses⟩ := aside registry
  exact ⟨[], fit, taken, fun before => taken ▸ before, meshes, uses⟩

/-- Entering a geometry claims no name. -/
theorem claims_claimGeometry (primitive : Gltf.Primitive) :
    Claims (claimGeometry source primitive) fun _ claims => claims = [] :=
  claims_aside fun _ => ⟨rfl, rfl, rfl, rfl⟩

/-- Entering a material claims no name. -/
theorem claims_claimMaterial (primitive : Gltf.Primitive) :
    Claims (claimMaterial source primitive) fun _ claims => claims = [] :=
  claims_aside fun _ => ⟨rfl, rfl, rfl, rfl⟩

/-- The object of a primitive claims its name. -/
theorem claims_primitiveObject
    (base : String)
    (extras : Json.Members)
    (primitive : Gltf.Primitive) :
    Claims (primitiveObject source base extras primitive) fun object claims =>
      claims = [object.name] := by
  refine claims_bind (claims_claimName base) ?_
  rintro name _ rfl
  refine claims_bind (claims_claimGeometry primitive) ?_
  rintro geometry _ rfl
  refine claims_bind (claims_claimMaterial primitive) ?_
  rintro material _ rfl
  exact claims_pure rfl

/-- Where each object claims its name, a row of them claims the names in order. -/
theorem claims_mapM
    {step : α → Building Scene.Node}
    (each : ∀ item, Claims (step item) fun object claims => claims = [object.name])
    (items : List α) :
    Claims (items.mapM step) fun built claims => claims = built.map (·.name) := by
  induction items with
  | nil => exact claims_pure rfl
  | cons item rest ih =>
    rw [List.mapM_cons]
    refine claims_bind (each item) ?_
    rintro object _ rfl
    refine claims_bind ih ?_
    rintro others _ rfl
    exact claims_pure (by simp)

/-- The objects of a mesh claim their names. -/
theorem claims_primitiveObjects
    (index : Nat)
    (mesh : Gltf.Mesh) :
    Claims (primitiveObjects source index mesh) fun built claims =>
      claims = built.map (·.name) :=
  claims_mapM (claims_primitiveObject _ _) mesh.primitives

end Steps

section Shows

variable {source : Source}

/-- A step visits nodes and makes copies, and what it shows is among the names that it reserves and
those of the copies. -/
def Shows
    (source : Source)
    (visits : List Nat)
    (step : Building α)
    (fits : α → List String → Prop) :
    Prop :=
  ∀ registry copies before,
    Ledger source registry copies before → (before ++ visits).Nodup →
      ∃ claims more shown,
        fits (step.run registry).1 shown ∧
          (step.run registry).2.taken = claims ++ registry.taken ∧
          Ledger source (step.run registry).2 (copies ++ more) (before ++ visits) ∧
          shown.Subperm (claims ++ more.map fun copy => copyName copy.1 copy.2)

/-- A step that only claims names shows what it claims and visits no node. -/
theorem Claims.shows
    {step : Building α}
    {fits : α → List String → Prop}
    (claims : Claims step fits) :
    Shows source [] step fits := by
  intro registry copies before ledger _
  obtain ⟨names, fit, taken, fresh, meshes, uses⟩ := claims registry
  refine ⟨names.reverse, [], names, fit, taken, ?_, ?_⟩
  · rw [List.append_nil, List.append_nil]
    exact ledger.claim taken (fresh ledger.taken) meshes uses
  · rw [List.map_nil, List.append_nil]
    exact names.reverse_perm.symm.subperm

/-- A step that does nothing shows no name. -/
theorem shows_pure
    {value : α}
    {fits : α → List String → Prop}
    (fit : fits value []) :
    Shows source [] (pure value) fits :=
  (claims_pure fit).shows

/-- Two steps visit their nodes, and show their names, one after the other. -/
theorem shows_bind
    {first second : List Nat}
    {step : Building α}
    {next : α → Building β}
    {here : α → List String → Prop}
    {fits : β → List String → Prop}
    (early : Shows source first step here)
    (late :
      ∀ value shown, here value shown →
        Shows source second (next value) fun result more => fits result (shown ++ more)) :
    Shows source (first ++ second) (step >>= next) fits := by
  intro registry copies before ledger different
  rw [← List.append_assoc] at different ⊢
  obtain ⟨claims, more, shown, fit, taken, middle, among⟩ :=
    early registry copies before ledger (List.nodup_append.mp different).1
  obtain ⟨claimsToo, moreToo, shownToo, fitting, takenToo, last, amongToo⟩ :=
    late _ shown fit _ _ _ middle different
  refine ⟨claimsToo ++ claims, more ++ moreToo, shown ++ shownToo, fitting, ?_, ?_, ?_⟩
  · rw [List.append_assoc, ← taken]
    exact takenToo
  · rw [← List.append_assoc]
    exact last
  · refine (among.append amongToo).trans (List.Perm.subperm ?_)
    refine List.perm_iff_count.mpr fun name => ?_
    simp only [List.map_append, List.count_append]
    omega

/-- A step that visits no node may as well visit some. -/
theorem Shows.visit
    {visits : List Nat}
    {step : Building α}
    {fits : α → List String → Prop}
    (showing : Shows source [] step fits) :
    Shows source visits step fits := by
  intro registry copies before ledger different
  obtain ⟨claims, more, shown, fit, taken, after, among⟩ :=
    showing registry copies before ledger (by simpa using (List.nodup_append.mp different).1)
  rw [List.append_nil] at after
  exact ⟨claims, more, shown, fit, taken, after.visit visits, among⟩

end Shows

section Meshes

variable {source : Source} {registry : Registry} {copies : List (String × Nat)}
  {visited : List Nat}

theorem mesh_of_nodeAt
    {node index : Nat}
    (draws : (nodeAt source node).mesh = some index) :
    ∃ found, source.document.nodes[node]? = some found ∧ found.mesh = some index := by
  rw [nodeAt] at draws
  cases found : source.document.nodes[node]? with
  | none =>
    rw [found] at draws
    cases draws
  | some one =>
    rw [found] at draws
    exact ⟨one, rfl, draws⟩

/-- A mesh that two nodes draw counts twice. -/
theorem two_le_drawCount
    {first second index : Nat}
    (before : first < second)
    (drawsFirst : (nodeAt source first).mesh = some index)
    (drawsSecond : (nodeAt source second).mesh = some index) :
    2 ≤ drawCount source index := by
  obtain ⟨left, foundLeft, meshLeft⟩ := mesh_of_nodeAt drawsFirst
  obtain ⟨right, foundRight, meshRight⟩ := mesh_of_nodeAt drawsSecond
  rw [← Array.getElem?_toList] at foundLeft foundRight
  let nodes := source.document.nodes.toList
  let drawing (node : Gltf.Node) : Bool := node.mesh == some index
  have early : left ∈ (nodes.take second).filter drawing := by
    refine List.mem_filter.mpr ⟨?_, by simp [drawing, meshLeft]⟩
    exact List.mem_of_getElem? ((List.getElem?_take_of_lt before).trans foundLeft)
  have late : right ∈ (nodes.drop second).filter drawing := by
    refine List.mem_filter.mpr ⟨?_, by simp [drawing, meshRight]⟩
    refine List.mem_of_getElem? (i := 0) ?_
    rw [List.getElem?_drop]
    exact foundRight
  have split : nodes.filter drawing =
      (nodes.take second).filter drawing ++ (nodes.drop second).filter drawing := by
    rw [← List.filter_append, List.take_append_drop]
  have count : drawCount source index = (nodes.filter drawing).length := rfl
  rw [count, split, List.length_append]
  have first := List.length_pos_of_mem early
  have other := List.length_pos_of_mem late
  omega

/-- A mesh that one node draws has no objects yet when the node is visited. -/
theorem Ledger.drawn_twice
    (ledger : Ledger source registry copies visited)
    {node index : Nat}
    {built : List Scene.Node}
    (draws : (nodeAt source node).mesh = some index)
    (unvisited : node ∉ visited)
    (found : Registry.find? registry.meshes index = some built) :
    2 ≤ drawCount source index := by
  obtain ⟨other, member, drawsToo⟩ := ledger.drawn index built found
  rcases Nat.lt_trichotomy node other with before | rfl | after
  · exact two_le_drawCount before draws drawsToo
  · exact absurd member unvisited
  · exact two_le_drawCount after drawsToo draws

/-- The objects of a mesh are kept under names that were reserved for them. -/
theorem Ledger.enroll
    (ledger : Ledger source registry copies visited)
    {after : Registry}
    {index : Nat}
    {built : List Scene.Node}
    (absent : Registry.find? registry.meshes index = none)
    (taken : after.taken = (built.map (·.name)).reverse ++ registry.taken)
    (fresh : after.taken.Nodup)
    (meshes : after.meshes = registry.meshes)
    (uses : after.uses = registry.uses)
    {node : Nat}
    (draws : (nodeAt source node).mesh = some index) :
    Ledger source { after with meshes := Registry.assign after.meshes index built } copies
      (visited ++ [node]) := by
  have middle := (ledger.claim taken fresh meshes uses).visit [node]
  have apart :
      ∀ other objects name, Registry.find? registry.meshes other = some objects →
        name ∈ objects.map (·.name) → name ∉ built.map (·.name) := by
    intro other objects name found old new
    rw [taken] at fresh
    exact (List.nodup_append.mp fresh).2.2 name (List.mem_reverse.mpr new) name
      ((ledger.kept other objects found).2 old) rfl
  have found {other : Nat} {objects : List Scene.Node}
      (listed : Registry.find? (Registry.assign after.meshes index built) other = some objects) :
      other = index ∧ objects = built ∨
        other ≠ index ∧ Registry.find? registry.meshes other = some objects := by
    rw [Registry.find?_assign, meshes] at listed
    split at listed
    next same => exact .inl ⟨same, (Option.some.inj listed).symm⟩
    next differs => exact .inr ⟨differs, listed⟩
  constructor
  case taken => exact fresh
  case kept =>
    intro other objects listed
    rcases found listed with ⟨rfl, rfl⟩ | ⟨_, old⟩
    · rw [taken] at fresh ⊢
      refine ⟨List.nodup_reverse.mp (List.nodup_append.mp fresh).1, fun name member => ?_⟩
      exact List.mem_append_left _ (List.mem_reverse.mpr member)
    · rw [← meshes] at old
      exact middle.kept other objects old
  case apart =>
    intro first second left right name foundLeft foundRight inLeft inRight
    rcases found foundLeft with ⟨rfl, rfl⟩ | ⟨_, oldLeft⟩ <;>
      rcases found foundRight with ⟨rfl, rfl⟩ | ⟨_, oldRight⟩
    · rfl
    · exact absurd inLeft (apart second right name oldRight inRight)
    · exact absurd inRight (apart first left name oldLeft inLeft)
    · exact ledger.apart first second left right name oldLeft oldRight inLeft inRight
  case drawn =>
    intro other objects listed
    rcases found listed with ⟨rfl, rfl⟩ | ⟨_, old⟩
    · exact ⟨node, List.mem_append_right _ (List.mem_singleton_self node), draws⟩
    · rw [← meshes] at old
      exact middle.drawn other objects old
  case distinct => exact ledger.distinct
  case numbered =>
    intro copy member
    obtain ⟨other, objects, old, named, earlier⟩ := middle.numbered copy member
    have differs : other ≠ index := by
      rintro rfl
      rw [meshes, absent] at old
      cases old
    refine ⟨other, objects, ?_, named, earlier⟩
    rw [Registry.find?_assign, if_neg differs]
    exact old

/--
Taking the objects of a mesh out of the registry, or building them at the first use,
keeps the ledger.
-/
theorem Ledger.keeps_objects
    (ledger : Ledger source registry copies visited)
    {node index : Nat}
    (draws : (nodeAt source node).mesh = some index)
    (unvisited : node ∉ visited)
    (mesh : Gltf.Mesh) :
    ∃ claims,
      ((meshObjects source index mesh).run registry).2.taken = claims ++ registry.taken ∧
        Ledger source ((meshObjects source index mesh).run registry).2 copies
          (visited ++ [node]) ∧
        Registry.find? ((meshObjects source index mesh).run registry).2.meshes index =
          some ((meshObjects source index mesh).run registry).1 ∧
        (drawCount source index ≤ 1 →
          (((meshObjects source index mesh).run registry).1.map (·.name)).Subperm claims) := by
  cases found : Registry.find? registry.meshes index with
  | some built =>
    have run : (meshObjects source index mesh).run registry = (built, registry) := by
      simp only [meshObjects, StateT.run_bind, StateT.run_get, pure_bind, found]
      rfl
    rw [run]
    refine ⟨[], rfl, ledger.visit [node], found, fun once => ?_⟩
    have twice := ledger.drawn_twice draws unvisited found
    omega
  | none =>
    obtain ⟨names, rfl, taken, fresh, meshes, uses⟩ :=
      claims_primitiveObjects index mesh registry
    generalize outcome : (primitiveObjects source index mesh).run registry = made at *
    obtain ⟨built, after⟩ := made
    have run : (meshObjects source index mesh).run registry =
        (built, { after with meshes := Registry.assign after.meshes index built }) := by
      simp only [meshObjects, StateT.run_bind, StateT.run_get, pure_bind, found, outcome]
      rfl
    rw [run]
    refine ⟨_, taken, ledger.enroll found taken (fresh ledger.taken) meshes uses draws, ?_, ?_⟩
    · rw [Registry.find?_assign, if_pos rfl]
    · exact fun _ => (List.reverse_perm _).symm.subperm

/-- One more use of a mesh makes copies that were not made before. -/
theorem Ledger.copy
    (ledger : Ledger source registry copies visited)
    {index : Nat}
    {built : List Scene.Node}
    (found : Registry.find? registry.meshes index = some built) :
    Ledger source
      { registry with
        uses := Registry.assign registry.uses index (usesOf registry index + 1) }
      (copies ++ (built.map (·.name)).map (·, usesOf registry index)) visited := by
  have later (other : Nat) :
      usesOf
          { registry with
            uses := Registry.assign registry.uses index (usesOf registry index + 1) } other =
        if other = index then usesOf registry index + 1 else usesOf registry other := by
    rw [usesOf, Registry.find?_assign]
    split <;> rfl
  refine
    { taken := ledger.taken
      kept := ledger.kept
      apart := ledger.apart
      drawn := ledger.drawn
      distinct := ?_
      numbered := ?_ }
  · refine List.nodup_append.mpr ⟨ledger.distinct, ?_, ?_⟩
    · refine List.Nodup.map ?_ (ledger.kept index built found).1
      exact fun first second same => congrArg Prod.fst same
    · rintro copy old _ new rfl
      obtain ⟨name, member, rfl⟩ := List.mem_map.mp new
      obtain ⟨other, objects, listed, named, earlier⟩ := ledger.numbered _ old
      obtain rfl := ledger.apart other index objects built name listed found named member
      exact Nat.lt_irrefl _ earlier
  · intro copy member
    rcases List.mem_append.mp member with old | new
    · obtain ⟨other, objects, listed, named, earlier⟩ := ledger.numbered copy old
      refine ⟨other, objects, listed, named, ?_⟩
      rw [later]
      split
      next same => exact Nat.lt_succ_of_lt (same ▸ earlier)
      next => exact earlier
    · obtain ⟨name, named, rfl⟩ := List.mem_map.mp new
      refine ⟨index, built, found, named, ?_⟩
      rw [later, if_pos rfl]
      exact Nat.lt_succ_self _

/-- Objects of a mesh are numbered for one more use, unless one node alone draws the mesh. -/
theorem Ledger.numbers_objects
    (ledger : Ledger source registry copies visited)
    {index : Nat}
    {built objects : List Scene.Node}
    (found : Registry.find? registry.meshes index = some built)
    (named : objects.map (·.name) = built.map (·.name)) :
    ∃ more,
      ((numberedUse source index objects).run registry).2.taken = registry.taken ∧
        Ledger source ((numberedUse source index objects).run registry).2 (copies ++ more)
          visited ∧
        (drawCount source index ≤ 1 ∧
            ((numberedUse source index objects).run registry).1 = objects ∨
          ((numberedUse source index objects).run registry).1.map (·.name) =
            more.map fun copy => copyName copy.1 copy.2) := by
  rw [numberedUse]
  split
  next once =>
    refine ⟨[], rfl, ?_, .inl ⟨once, rfl⟩⟩
    rw [List.append_nil]
    exact ledger
  next =>
    have copied := ledger.copy found
    refine ⟨_, rfl, copied, .inr ?_⟩
    rw [← named, List.map_map, List.map_map]
    exact List.map_map

theorem names_leaves (nodes : List Scene.Node) :
    (objectsOfAll (nodes.map .leaf)).map (·.name) = nodes.map (·.name) := by
  induction nodes with
  | nil => rfl
  | cons node rest ih =>
    rw [List.map_cons, objectsOfAll, List.map_append, ih]
    rfl

/-- A bundle has no name of its own and is given those of its parts. -/
theorem given_bundle
    {blueprints : List Blueprint}
    {shown : List String}
    (given : Given ((objectsOfAll blueprints).map (·.name)) shown) :
    Given ((Blueprint.bundle blueprints).objects.map (·.name)) shown := by
  unfold Blueprint.bundle
  split
  next single =>
    rw [objectsOfAll, objectsOfAll, List.append_nil] at given
    exact given
  next => exact given_blank given

/-- What stands for a mesh shows names reserved for it, or those of copies. -/
theorem shows_meshBlueprint
    {node index : Nat}
    (draws : (nodeAt source node).mesh = some index)
    (mesh : Gltf.Mesh) :
    Shows source [node] (meshBlueprint source (nodeAt source node) index mesh)
      fun blueprint shown => Given (blueprint.objects.map (·.name)) shown := by
  intro registry copies before ledger different
  have unvisited : node ∉ before := by
    intro member
    exact (List.nodup_append.mp different).2.2 node member node (List.mem_singleton_self node) rfl
  obtain ⟨claims, taken, middle, found, raw⟩ := ledger.keeps_objects draws unvisited mesh
  generalize outcome : (meshObjects source index mesh).run registry = made at *
  obtain ⟨built, after⟩ := made
  let used := built.map (usedObject source (nodeAt source node) mesh)
  have named : used.map (·.name) = built.map (·.name) := List.map_map
  obtain ⟨more, kept, last, names⟩ := middle.numbers_objects found named
  have run :
      (meshBlueprint source (nodeAt source node) index mesh).run registry =
        (.bundle (((numberedUse source index used).run after).1.map .leaf),
          ((numberedUse source index used).run after).2) := by
    simp only [meshBlueprint, StateT.run_bind, outcome]
    rfl
  rw [run]
  refine ⟨claims, more, _, given_bundle (given_self _), kept.trans taken, last, ?_⟩
  rw [names_leaves]
  rcases names with ⟨once, same⟩ | copied
  · rw [same, named]
    exact (raw once).trans (List.sublist_append_left _ _).subperm
  · rw [copied]
    exact (List.sublist_append_right _ _).subperm

end Meshes

section Nodes

variable {source : Source}

/-- The names of the objects of some blueprints. -/
abbrev namesOf (blueprints : List Blueprint) : List String :=
  (objectsOfAll blueprints).map (·.name)

/-- The mesh of a node is given the names that the visit of the node shows. -/
theorem shows_drawnMesh (node : Nat) :
    Shows source [node] (drawnMesh source (nodeAt source node)) fun blueprints shown =>
      Given (namesOf blueprints) shown := by
  unfold drawnMesh
  split
  next index mesh chosen =>
    obtain ⟨place, draws, placed⟩ := Option.bind_eq_some_iff.mp chosen
    obtain ⟨_, _, same⟩ := Option.map_eq_some_iff.mp placed
    cases same
    rw [← List.append_nil [node]]
    refine shows_bind (shows_meshBlueprint draws mesh) fun blueprint shown given => ?_
    refine shows_pure ?_
    rw [namesOf, objectsOfAll, objectsOfAll, List.append_nil, List.append_nil]
    exact given
  next => exact (shows_pure (given_nil _)).visit

/-- A single object is given its own name. -/
theorem given_leaf
    {object : Scene.Node}
    {shown : List String}
    (given : Given [object.name] shown) :
    Given (namesOf [.leaf object]) shown :=
  given

/-- The camera of a node is given the name that it claims. -/
theorem shows_placedCamera (node : Gltf.Node) :
    Shows source [] (placedCamera source node) fun blueprints shown =>
      Given (namesOf blueprints) shown := by
  have object (camera : Gltf.Camera) :
      Claims (cameraObject camera) fun object claims => Given [object.name] claims := by
    unfold cameraObject
    split
    · refine claims_bind (claims_claimName _) ?_
      rintro name _ rfl
      exact claims_pure (given_self _)
    · exact claims_pure (given_blank (given_nil _))
  unfold placedCamera
  split
  · refine (claims_bind (object _) fun camera claims given => claims_pure ?_).shows
    rw [List.append_nil]
    exact given_leaf given
  · exact shows_pure (given_nil _)

/-- The light of a node is given the name that it claims. -/
theorem shows_placedLight (node : Gltf.Node) :
    Shows source [] (placedLight source node) fun blueprints shown =>
      Given (namesOf blueprints) shown := by
  have object (index : Nat) (light : Gltf.Light) :
      Claims (lightObject index light) fun object claims => Given [object.name] claims := by
    refine claims_bind (claims_claimName _) ?_
    rintro name _ rfl
    exact claims_pure (given_self _)
  unfold placedLight
  split
  · refine (claims_bind (object _ _) fun light claims given => claims_pure ?_).shows
    rw [List.append_nil]
    exact given_leaf given
  · exact shows_pure (given_nil _)

/-- The names of two rows of blueprints stand one row after the other. -/
theorem namesOf_append
    (first second : List Blueprint) :
    namesOf (first ++ second) = namesOf first ++ namesOf second := by
  induction first with
  | nil => rfl
  | cons one rest ih =>
    simp only [namesOf, List.cons_append, objectsOfAll, List.map_append] at ih ⊢
    rw [ih, List.append_assoc]

/-- All that a node carries is given the names that its visit shows. -/
theorem shows_carried (node : Nat) :
    Shows source [node] (carried source (nodeAt source node)) fun objects shown =>
      Given (namesOf objects) shown := by
  rw [carried_eq]
  have steps : [node] = [node] ++ ([] ++ ([] ++ [])) := rfl
  rw [steps]
  refine shows_bind (shows_drawnMesh node) fun meshes shownMeshes drawn => ?_
  refine shows_bind (shows_placedCamera _) fun cameras shownCameras placed => ?_
  refine shows_bind (shows_placedLight _) fun lights shownLights lit => ?_
  refine shows_pure ?_
  rw [namesOf_append, namesOf_append, List.append_nil, ← List.append_assoc]
  exact (drawn.append placed).append lit

/-- A named node claims one name and an unnamed one none. -/
theorem claims_claimNodeName (node : Gltf.Node) :
    Claims (claimNodeName node) fun name claims => claims = name.toList := by
  unfold claimNodeName
  split
  · rw [← bind_pure_comp]
    refine claims_bind (claims_claimName _) ?_
    rintro name _ rfl
    exact claims_pure rfl
  · exact claims_pure rfl

/-- What holds the objects is an object, and it is given a name with those below it. -/
theorem exists_given_of_holder
    (joint : Bool)
    {objects : List Blueprint}
    {shown : List String}
    (given : Given (namesOf objects) shown) :
    ∃ object standsFor below,
      holder joint objects = .object object standsFor below ∧
        Given (object.name :: namesOf below) shown := by
  cases joint with
  | true => exact ⟨_, _, _, rfl, given_blank given⟩
  | false =>
    rcases objects with _ | ⟨first, _ | ⟨second, rest⟩⟩
    · exact ⟨_, _, _, rfl, given_blank given⟩
    · obtain ⟨object, standsFor, below⟩ := first
      simp only [namesOf, objectsOfAll, Blueprint.objects, List.append_nil, List.map_cons] at given
      exact ⟨object, standsFor, below, rfl, given⟩
    · exact ⟨_, _, _, rfl, given_blank given⟩

/-- A stand-in has the name of its node, or else that of what it would be without a node. -/
theorem given_standIn
    {objects children : List Blueprint}
    {shown further : List String}
    (given : Given (namesOf objects) shown)
    (below : Given (namesOf children) further)
    (index : Nat)
    (node : Gltf.Node)
    (name : Option String)
    (joint : Bool) :
    Given ((standIn index node name children (holder joint objects)).objects.map (·.name))
      (name.toList ++ (shown ++ further)) := by
  obtain ⟨object, standsFor, carried, held, givenHolder⟩ := exists_given_of_holder joint given
  rw [held, standIn, Blueprint.objects, List.map_cons]
  have rest := namesOf_append carried children
  rw [namesOf] at rest
  rw [rest]
  cases name with
  | none => exact givenHolder.append below
  | some name => exact (given_self [name]).append (givenHolder.tail.append below)

/-- A walk over several nodes shows the names of each in turn. -/
theorem shows_mapM
    {walk : Nat → List Nat}
    {step : Nat → Building Blueprint}
    (each :
      ∀ item,
        Shows source (walk item) (step item) fun blueprint shown =>
          Given (blueprint.objects.map (·.name)) shown)
    (items : List Nat) :
    Shows source (items.flatMap walk) (items.mapM step) fun blueprints shown =>
      Given (namesOf blueprints) shown := by
  induction items with
  | nil => exact shows_pure (given_nil _)
  | cons item rest ih =>
    rw [List.mapM_cons, List.flatMap_cons, ← List.append_nil (rest.flatMap walk)]
    refine shows_bind (each item) fun blueprint shown given => ?_
    refine shows_bind ih fun others further below => shows_pure ?_
    rw [namesOf, objectsOfAll, List.map_append, List.append_nil]
    exact given.append below

/-- What stands for a node and the nodes below it shows names that were reserved, or copies'. -/
theorem shows_blueprintOf
    (levels index : Nat) :
    Shows source (visits source levels index) (blueprintOf source levels index)
      fun blueprint shown => Given (blueprint.objects.map (·.name)) shown := by
  induction levels generalizing index with
  | zero =>
    have steps : visits source 0 index = [] ++ ([index] ++ ([] ++ [])) := rfl
    rw [blueprintOf, pure_bind, steps]
    refine shows_bind (claims_claimNodeName _).shows ?_
    rintro name _ rfl
    refine shows_bind (shows_carried index) fun objects shown given => ?_
    have none :
        Shows source [] (pure []) fun children further => Given (namesOf children) further :=
      shows_pure (given_nil [])
    refine shows_bind none fun children further below => shows_pure ?_
    rw [List.append_nil]
    exact given_standIn given below _ _ _ _
  | succ fewer ih =>
    have steps :
        visits source (fewer + 1) index =
          [] ++ ([index] ++ ((nodeAt source index).children.flatMap (visits source fewer) ++ [])) := by
      rw [List.append_nil]
      rfl
    rw [blueprintOf, pure_bind, steps]
    refine shows_bind (claims_claimNodeName _).shows ?_
    rintro name _ rfl
    refine shows_bind (shows_carried index) fun objects shown given => ?_
    refine shows_bind (shows_mapM ih _) fun children further below => shows_pure ?_
    rw [List.append_nil]
    exact given_standIn given below _ _ _ _

end Nodes

section Scenes

variable {source : Source} {scene : Gltf.Scene}

/-- The name of the scene is claimed if it has one. -/
theorem claims_claimSceneName (scene : Gltf.Scene) :
    Claims (claimSceneName scene) fun name claims => Given [name] claims := by
  unfold claimSceneName
  split
  · intro registry
    obtain ⟨_, rfl, claimed⟩ := claims_claimName _ registry
    exact ⟨_, given_self _, claimed⟩
  · exact claims_pure (given_blank (given_nil _))

/-- The walk over a scene shows a name for everything that is built. -/
theorem shows_sceneBlueprints :
    Shows source (scene.nodes.flatMap (visits source source.document.nodes.size))
      (sceneBlueprints source scene)
      fun made shown => Given (made.1 :: namesOf made.2) shown := by
  rw [← List.nil_append (scene.nodes.flatMap _),
    ← List.append_nil (scene.nodes.flatMap _)]
  refine shows_bind (claims_claimSceneName scene).shows fun name shown given => ?_
  refine shows_bind (shows_mapM (shows_blueprintOf _) _) fun blueprints further below => ?_
  refine shows_pure ?_
  rw [List.append_nil]
  exact given.append below

/-- The nodes of the graph are called by the names of the scene and its blueprints, in order. -/
theorem names_graphOf :
    (graphOf source scene).nodes.toList.map (·.name) =
      ((sceneBlueprints source scene).run {}).1.1 ::
        namesOf ((sceneBlueprints source scene).run {}).1.2 := by
  have unlinked : Unlinked fun node => node.name := fun _ _ _ => rfl
  exact traits_placeAll unlinked ⟨_, []⟩ SceneGraph.root _

/-- The names of a graph are among those reserved and those of copies of objects whose names are
reserved. -/
theorem given_graphOf
    (once : ReachedOnce source scene) :
    ∃ copies : List (String × Nat),
      Given ((graphOf source scene).nodes.toList.map (·.name))
          ((registryOf source scene).taken ++ copies.map fun copy => copyName copy.1 copy.2) ∧
        (registryOf source scene).taken.Nodup ∧
        copies.Nodup ∧
        ∀ copy ∈ copies, copy.1 ∈ (registryOf source scene).taken := by
  obtain ⟨claims, copies, shown, given, taken, ledger, among⟩ :=
    shows_sceneBlueprints {} [] [] (ledger_empty source)
      (nodup_visits once source.document.nodes.size)
  have reserved : (registryOf source scene).taken = claims := taken.trans (List.append_nil claims)
  refine ⟨copies, ?_, ledger.taken, ledger.distinct, fun copy member => ?_⟩
  · rw [names_graphOf, reserved]
    exact List.Subperm.trans given among
  · obtain ⟨index, built, found, base, _⟩ := ledger.numbered copy member
    exact (ledger.kept index built found).2 base

/-- A name is reserved, and it is also the name of a copy of an object with a reserved name. -/
def Ambiguous (registry : Registry) (name : String) : Prop :=
  name ∈ registry.taken ∧ ∃ base ∈ registry.taken, ∃ use, name = copyName base use

/--
A name that no copy could have been given stands at most once among claimed names and
copies.
-/
theorem count_le_one_of_clear
    {registry : Registry}
    {copies : List (String × Nat)}
    {name : String}
    (taken : registry.taken.Nodup)
    (distinct : copies.Nodup)
    (bases : ∀ copy ∈ copies, copy.1 ∈ registry.taken)
    (clear : ¬ Ambiguous registry name) :
    (registry.taken ++ copies.map fun copy => copyName copy.1 copy.2).count name ≤ 1 := by
  have different : (copies.map fun copy => copyName copy.1 copy.2).Nodup := by
    refine List.Nodup.map (fun left right same => ?_) distinct
    exact Prod.ext (copyName_injective same).1 (copyName_injective same).2
  have few := List.nodup_iff_count_le_one.mp taken name
  have fewCopies := List.nodup_iff_count_le_one.mp different name
  rw [List.count_append]
  by_cases reserved : name ∈ registry.taken
  · have none : name ∉ copies.map fun copy => copyName copy.1 copy.2 := by
      intro listed
      obtain ⟨copy, member, rfl⟩ := List.mem_map.mp listed
      exact clear ⟨reserved, copy.1, bases copy member, copy.2, rfl⟩
    rw [List.count_eq_zero_of_not_mem none]
    exact few
  · rw [List.count_eq_zero_of_not_mem reserved, Nat.zero_add]
    exact fewCopies

/-- What stands at two places of a list counts twice. -/
theorem two_le_count
    {names : List String}
    {first second : Nat}
    {name : String}
    (before : first < second)
    (atFirst : names[first]? = some name)
    (atSecond : names[second]? = some name) :
    2 ≤ names.count name := by
  obtain ⟨inside, here⟩ := List.getElem?_eq_some_iff.mp atFirst
  obtain ⟨insideToo, there⟩ := List.getElem?_eq_some_iff.mp atSecond
  refine List.duplicate_iff_two_le_count.mp (List.duplicate_iff_exists_distinct_get.mpr ?_)
  exact ⟨⟨first, inside⟩, ⟨second, insideToo⟩, before, here.symm, there.symm⟩

/-- Two nodes of a loaded graph have one name only if it is empty or ambiguous. -/
theorem names_identify_nodes
    (once : ReachedOnce source scene)
    {first second : NodeId}
    (firstInside : first < (graphOf source scene).size)
    (secondInside : second < (graphOf source scene).size)
    (same : ((graphOf source scene).node first).name = ((graphOf source scene).node second).name)
    (named : ((graphOf source scene).node first).name ≠ "")
    (clear : ¬ Ambiguous (registryOf source scene) ((graphOf source scene).node first).name) :
    first = second := by
  obtain ⟨copies, given, taken, distinct, bases⟩ := given_graphOf once
  generalize shared : ((graphOf source scene).node first).name = name at *
  let names := (graphOf source scene).nodes.toList.map (·.name)
  have few : names.count name ≤ 1 := by
    have clearly := count_le_one_of_clear taken distinct bases clear
    have kept : (names.filter (· ≠ "")).count name = names.count name :=
      List.count_filter (by simpa using named)
    rw [← kept]
    exact (given.count_le name).trans clearly
  have listed {id : NodeId} (inside : id < (graphOf source scene).size) :
      names[id]? = some ((graphOf source scene).node id).name := by
    have stored : id < (graphOf source scene).nodes.size := inside
    simp [names, SceneGraph.node, Array.getD_eq_getD_getElem?, stored]
  have atFirst := listed firstInside
  have atSecond := listed secondInside
  rw [shared] at atFirst
  rw [← same] at atSecond
  rcases Nat.lt_trichotomy first second with before | here | after
  · exact absurd (two_le_count before atFirst atSecond) (by omega)
  · exact here
  · exact absurd (two_le_count after atSecond atFirst) (by omega)

end Scenes

namespace Crowd

/-- Two nodes that draw one mesh, and a third one with a name of its own. -/
def source (name : String) : Source where
  document :=
    { Sample.document with
      meshes := #[⟨some "Tree", .null, [Sample.twins.1], none⟩]
      nodes :=
        #[{ Gltf.Node.absent with mesh := some 0 },
          { Gltf.Node.absent with mesh := some 0 },
          { Gltf.Node.absent with name := some name }] }
  contents := none

/-- All three nodes. -/
def scene : Gltf.Scene :=
  ⟨none, [0, 1, 2], .null⟩

/-- The names of the objects that stand for the nodes. -/
def names (name : String) : List String :=
  [1, 2, 3].map fun id => ((graphOf (source name) scene).node id).name

end Crowd

/-- The copies of a tree and a lamp have names of their own. -/
theorem names_identify_nodes_crowd :
    ReachedOnce (Crowd.source "Lamp") Crowd.scene ∧
      Crowd.names "Lamp" = ["Tree_instance_0", "Tree_instance_1", "Lamp"] ∧
      ∀ id < (graphOf (Crowd.source "Lamp") Crowd.scene).size,
        ((graphOf (Crowd.source "Lamp") Crowd.scene).node id).name = "Tree_instance_1" →
          2 = id := by
  have once : ReachedOnce (Crowd.source "Lamp") Crowd.scene := by decide +kernel
  have copy : ((graphOf (Crowd.source "Lamp") Crowd.scene).node 2).name = "Tree_instance_1" := by
    decide +kernel
  have taken : (registryOf (Crowd.source "Lamp") Crowd.scene).taken = ["Lamp", "Tree"] := by
    decide +kernel
  refine ⟨once, by decide +kernel, fun id inside same => ?_⟩
  refine names_identify_nodes once (by decide +kernel) inside (copy.trans same.symm) ?_ ?_
  · rw [copy]
    decide
  · rw [copy]
    rintro ⟨reserved, _⟩
    rw [taken] at reserved
    exact absurd reserved (by decide)

/-- A node that has the name of a copy is not told apart from the copy. -/
theorem names_clash :
    ReachedOnce (Crowd.source "Tree_instance_1") Crowd.scene ∧
      Crowd.names "Tree_instance_1" =
        ["Tree_instance_0", "Tree_instance_1", "Tree_instance_1"] := by
  exact ⟨by decide +kernel, by decide +kernel⟩

end SceneMarkup.Loading
