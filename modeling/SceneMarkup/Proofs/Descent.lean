import Mathlib.Data.List.Perm.Basic
import Mathlib.Data.List.Nodup
import SceneMarkup.Proofs.Construction

namespace SceneMarkup.Loading

/-!
# Walking down the nodes of a scene

An address is a list of places: the first one chooses among the nodes of the
scene, and each one that follows among the children of the node chosen before.
Where no node has two addresses, a walk over the nodes comes by each of them once,
and no address is longer than there are nodes, so that as many levels as there
are nodes are enough.
-/

variable (source : Source)

/-- The node at an address, which begins among some siblings. -/
def follow? : List Nat → List Nat → Option Nat
  | _, [] => none
  | siblings, [place] => siblings[place]?
  | siblings, place :: next :: rest =>
      siblings[place]?.bind fun index =>
        follow? (nodeAt source index).children (next :: rest)

/-- From some siblings on, no node has two addresses. -/
def Once (siblings : List Nat) : Prop :=
  ∀ first second index,
    follow? source siblings first = some index →
      follow? source siblings second = some index → first = second

/-- The scene reaches a node. -/
def Reached (scene : Gltf.Scene) (index : Nat) : Prop :=
  ∃ address, follow? source scene.nodes address = some index

/-- The scene reaches every node at most once. -/
def ReachedOnce (scene : Gltf.Scene) : Prop :=
  Once source scene.nodes

/-- A node and the nodes at most so many levels below it, parents before children. -/
def visits : Nat → Nat → List Nat
  | 0, index => [index]
  | fewer + 1, index => index :: (nodeAt source index).children.flatMap (visits fewer)

/-- There are at most so many levels below a node. -/
def Within : Nat → Nat → Prop
  | 0, index => (nodeAt source index).children = []
  | fewer + 1, index => ∀ child ∈ (nodeAt source index).children, Within fewer child

section Addresses

variable {source : Source} {siblings : List Nat} {place index : Nat}

theorem follow?_cons
    (found : siblings[place]? = some index)
    {address : List Nat}
    {lower : Nat}
    (followed : follow? source (nodeAt source index).children address = some lower) :
    follow? source siblings (place :: address) = some lower := by
  cases address with
  | nil => cases followed
  | cons next rest =>
    rw [follow?, found]
    exact followed

/-- An address leads to one of the siblings or to a node below it. -/
theorem exists_of_follow?
    {address : List Nat}
    {lower : Nat}
    (followed : follow? source siblings (place :: address) = some lower) :
    ∃ index, siblings[place]? = some index ∧
      (address = [] ∧ lower = index ∨
        follow? source (nodeAt source index).children address = some lower) := by
  cases address with
  | nil => exact ⟨lower, followed, .inl ⟨rfl, rfl⟩⟩
  | cons next rest =>
    obtain ⟨index, found, further⟩ := Option.bind_eq_some_iff.mp followed
    exact ⟨index, found, .inr further⟩

theorem follow?_nil
    (address : List Nat) :
    follow? source [] address = none := by
  rcases address with _ | ⟨place, _ | ⟨next, rest⟩⟩ <;> rfl

/-- Past the first of some siblings an address begins one place later. -/
theorem follow?_succ
    (first : Nat)
    (rest : List Nat) :
    follow? source (first :: siblings) ((place + 1) :: rest) =
      follow? source siblings (place :: rest) := by
  cases rest <;> rfl

theorem Once.below
    (once : Once source siblings)
    (found : siblings[place]? = some index) :
    Once source (nodeAt source index).children := by
  intro first second lower left right
  exact List.cons_injective
    (once (place :: first) (place :: second) lower (follow?_cons found left)
      (follow?_cons found right))

theorem Once.tail
    {first : Nat}
    (once : Once source (first :: siblings)) :
    Once source siblings := by
  intro left right index atLeft atRight
  rcases left with _ | ⟨place, left⟩
  · cases atLeft
  rcases right with _ | ⟨other, right⟩
  · cases atRight
  rw [← follow?_succ first] at atLeft atRight
  simpa using once _ _ index atLeft atRight

/-- A node is not below itself. -/
theorem Once.not_below
    (once : Once source siblings)
    (found : siblings[place]? = some index)
    (address : List Nat) :
    follow? source (nodeAt source index).children address ≠ some index := by
  intro followed
  have same := once [place] (place :: address) index found (follow?_cons found followed)
  cases same
  cases followed

end Addresses

section Visits

variable {source : Source}

/-- A walk from a sibling comes by nodes whose addresses begin with the place of the sibling. -/
theorem exists_address
    {levels top index place : Nat}
    {siblings : List Nat}
    (found : siblings[place]? = some top)
    (visited : index ∈ visits source levels top) :
    ∃ address, follow? source siblings (place :: address) = some index := by
  induction levels generalizing siblings place top with
  | zero =>
    obtain rfl := List.mem_singleton.mp visited
    exact ⟨[], found⟩
  | succ fewer ih =>
    rcases List.mem_cons.mp visited with rfl | lower
    · exact ⟨[], found⟩
    · obtain ⟨child, member, under⟩ := List.mem_flatMap.mp lower
      obtain ⟨next, chosen⟩ := List.mem_iff_getElem?.mp member
      obtain ⟨address, followed⟩ := ih chosen under
      exact ⟨next :: address, follow?_cons found followed⟩

/-- A walk comes by nodes that have addresses. -/
theorem exists_follow?_of_visits
    {levels index : Nat}
    {siblings : List Nat}
    (visited : index ∈ siblings.flatMap (visits source levels)) :
    ∃ place address, follow? source siblings (place :: address) = some index := by
  obtain ⟨top, member, under⟩ := List.mem_flatMap.mp visited
  obtain ⟨place, found⟩ := List.mem_iff_getElem?.mp member
  exact ⟨place, exists_address found under⟩

/-- With levels enough, a walk comes by every node that has an address. -/
theorem mem_visits_of_follow?
    {levels index : Nat}
    {address siblings : List Nat}
    (within : ∀ top ∈ siblings, Within source levels top)
    (followed : follow? source siblings address = some index) :
    index ∈ siblings.flatMap (visits source levels) := by
  induction levels generalizing siblings address with
  | zero =>
    rcases address with _ | ⟨place, address⟩
    · cases followed
    obtain ⟨top, found, ⟨_, rfl⟩ | lower⟩ := exists_of_follow? followed
    · exact List.mem_flatMap.mpr ⟨_, List.mem_of_getElem? found, List.mem_singleton_self _⟩
    · have none : (nodeAt source top).children = [] := within top (List.mem_of_getElem? found)
      rw [none, follow?_nil] at lower
      cases lower
  | succ fewer ih =>
    rcases address with _ | ⟨place, address⟩
    · cases followed
    obtain ⟨top, found, ⟨_, rfl⟩ | lower⟩ := exists_of_follow? followed
    · exact List.mem_flatMap.mpr ⟨_, List.mem_of_getElem? found, List.mem_cons_self⟩
    · have member := List.mem_of_getElem? found
      have under := ih (within top member) lower
      exact List.mem_flatMap.mpr ⟨top, member, List.mem_cons_of_mem top under⟩

/-- Walks from several siblings come by different nodes. -/
theorem nodup_flatMap_visits
    {levels : Nat}
    {siblings : List Nat}
    (once : Once source siblings)
    (each : ∀ top ∈ siblings, (visits source levels top).Nodup) :
    (siblings.flatMap (visits source levels)).Nodup := by
  induction siblings with
  | nil => exact List.nodup_nil
  | cons top rest ih =>
    have others := ih once.tail fun other member => each other (List.mem_cons_of_mem top member)
    rw [List.flatMap_cons]
    refine List.nodup_append.mpr ⟨each top List.mem_cons_self, others, ?_⟩
    rintro index early _ late rfl
    -- One address begins at the first of the siblings, the other at a later one.
    have ahead : (top :: rest)[0]? = some top := rfl
    obtain ⟨address, first⟩ := exists_address ahead early
    obtain ⟨place, further, second⟩ := exists_follow?_of_visits late
    rw [← follow?_succ top] at second
    cases once _ _ index first second

/-- A walk comes by no node twice. -/
theorem nodup_visits
    {siblings : List Nat}
    (once : Once source siblings)
    (levels : Nat) :
    (siblings.flatMap (visits source levels)).Nodup := by
  induction levels generalizing siblings with
  | zero => exact nodup_flatMap_visits once fun top _ => List.nodup_singleton top
  | succ fewer ih =>
    refine nodup_flatMap_visits once fun top member => ?_
    obtain ⟨place, found⟩ := List.mem_iff_getElem?.mp member
    refine List.nodup_cons.mpr ⟨fun again => ?_, ih (once.below found)⟩
    obtain ⟨next, address, followed⟩ := exists_follow?_of_visits again
    exact once.not_below found (next :: address) followed

/-- A node that has children is one of the document's. -/
theorem lt_of_mem_children
    {index child : Nat}
    (member : child ∈ (nodeAt source index).children) :
    index < source.document.nodes.size := by
  by_contra outside
  rw [nodeAt, Array.getElem?_eq_none (Nat.le_of_not_lt outside)] at member
  cases member

theorem forall_lt_of_mem_children
    {index child : Nat}
    (below : child ∈ (nodeAt source index).children)
    {chain : List Nat}
    (inside : ∀ upper ∈ chain, upper < source.document.nodes.size) :
    ∀ upper ∈ index :: chain, upper < source.document.nodes.size := by
  intro upper listed
  rcases List.mem_cons.mp listed with rfl | earlier
  · exact lt_of_mem_children below
  · exact inside upper earlier

/-- A row of nodes, each one above those before it, leaves as many levels as there are others. -/
theorem within_of_chain
    {levels : Nat}
    {siblings chain : List Nat}
    (once : Once source siblings)
    (different : chain.Nodup)
    (inside : ∀ upper ∈ chain, upper < source.document.nodes.size)
    (apart : ∀ address index, follow? source siblings address = some index → index ∉ chain)
    (enough : source.document.nodes.size ≤ chain.length + levels) :
    ∀ index ∈ siblings, Within source levels index := by
  induction levels generalizing siblings chain with
  | zero =>
    intro index member
    refine List.eq_nil_iff_forall_not_mem.mpr fun child below => ?_
    obtain ⟨place, found⟩ := List.mem_iff_getElem?.mp member
    have longer : (index :: chain).Nodup :=
      List.nodup_cons.mpr ⟨apart [place] index found, different⟩
    have listed : index :: chain ⊆ List.range source.document.nodes.size :=
      fun upper above => List.mem_range.mpr (forall_lt_of_mem_children below inside upper above)
    have fits := (List.subperm_of_subset longer listed).length_le
    rw [List.length_cons, List.length_range] at fits
    omega
  | succ fewer ih =>
    intro index member child below
    obtain ⟨place, found⟩ := List.mem_iff_getElem?.mp member
    have longer : (index :: chain).Nodup :=
      List.nodup_cons.mpr ⟨apart [place] index found, different⟩
    have away :
        ∀ address lower,
          follow? source (nodeAt source index).children address = some lower →
            lower ∉ index :: chain := by
      intro address lower followed listed
      rcases List.mem_cons.mp listed with rfl | earlier
      · exact once.not_below found address followed
      · exact apart (place :: address) lower (follow?_cons found followed) earlier
    have fits : source.document.nodes.size ≤ (index :: chain).length + fewer := by
      rw [List.length_cons]
      omega
    exact ih (once.below found) longer (forall_lt_of_mem_children below inside) away fits child
      below

/-- As many levels as there are nodes are enough. -/
theorem within_of_once
    {siblings : List Nat}
    (once : Once source siblings) :
    ∀ index ∈ siblings, Within source source.document.nodes.size index :=
  within_of_chain once List.nodup_nil (fun _ listed => by cases listed)
    (fun _ _ _ listed => by cases listed) (Nat.le_add_left _ _)

/-- A walk from a sibling comes by what the addresses with the place of the sibling lead to. -/
theorem mem_visits_of_place
    {levels place top index : Nat}
    {address siblings : List Nat}
    (found : siblings[place]? = some top)
    (within : Within source levels top)
    (followed : follow? source siblings (place :: address) = some index) :
    index ∈ visits source levels top := by
  have alone : follow? source [top] (0 :: address) = some index := by
    cases address with
    | nil => exact found.symm.trans followed
    | cons next rest =>
      rw [follow?, found] at followed
      exact followed
  have visited := mem_visits_of_follow? (by simpa using within) alone
  rwa [List.flatMap_cons, List.flatMap_nil, List.append_nil] at visited

/-- Below a node that a walk comes by once there is no way back to it. -/
theorem not_follow?_of_nodup
    {levels top : Nat}
    (within : Within source levels top)
    (different : (visits source levels top).Nodup)
    (address : List Nat) :
    follow? source (nodeAt source top).children address ≠ some top := by
  intro followed
  cases levels with
  | zero =>
    have none : (nodeAt source top).children = [] := within
    rw [none, follow?_nil] at followed
    cases followed
  | succ fewer =>
    exact (List.nodup_cons.mp different).1 (mem_visits_of_follow? within followed)

/-- Siblings whose walks have nothing in common do not share a node. -/
theorem place_eq_of_visits
    {levels index place other top another : Nat}
    {siblings : List Nat}
    (apart : siblings.Pairwise (Function.onFun List.Disjoint (visits source levels)))
    (found : siblings[place]? = some top)
    (foundToo : siblings[other]? = some another)
    (visited : index ∈ visits source levels top)
    (visitedToo : index ∈ visits source levels another) :
    place = other := by
  obtain ⟨inside, rfl⟩ := List.getElem?_eq_some_iff.mp found
  obtain ⟨insideToo, rfl⟩ := List.getElem?_eq_some_iff.mp foundToo
  rw [List.pairwise_iff_getElem] at apart
  rcases Nat.lt_trichotomy place other with before | same | after
  · exact absurd visitedToo (apart place other inside insideToo before visited)
  · exact same
  · exact absurd visited (apart other place insideToo inside after visitedToo)

theorem once_of_below
    {levels : Nat}
    {siblings : List Nat}
    (within : ∀ top ∈ siblings, Within source levels top)
    (different : (siblings.flatMap (visits source levels)).Nodup)
    (below : ∀ top ∈ siblings, Once source (nodeAt source top).children) :
    Once source siblings := by
  obtain ⟨each, apart⟩ := List.nodup_flatMap.mp different
  intro first second index atFirst atSecond
  rcases first with _ | ⟨place, address⟩
  · cases atFirst
  rcases second with _ | ⟨other, further⟩
  · cases atSecond
  obtain ⟨top, found, here⟩ := exists_of_follow? atFirst
  obtain ⟨another, foundToo, there⟩ := exists_of_follow? atSecond
  have member := List.mem_of_getElem? found
  have memberToo := List.mem_of_getElem? foundToo
  obtain rfl :=
    place_eq_of_visits apart found foundToo
      (mem_visits_of_place found (within top member) atFirst)
      (mem_visits_of_place foundToo (within another memberToo) atSecond)
  obtain rfl : top = another := Option.some.inj (found.symm.trans foundToo)
  have noReturn := not_follow?_of_nodup (within top member) (each top member)
  rcases here with ⟨rfl, rfl⟩ | under <;> rcases there with ⟨rfl, same⟩ | underToo
  · rfl
  · exact absurd underToo (noReturn further)
  · exact absurd (same ▸ under) (noReturn address)
  · rw [below top member address further index under underToo]

/-- Where a walk comes by no node twice, no node has two addresses. -/
theorem once_of_nodup
    {levels : Nat}
    {siblings : List Nat}
    (within : ∀ top ∈ siblings, Within source levels top)
    (different : (siblings.flatMap (visits source levels)).Nodup) :
    Once source siblings := by
  induction levels generalizing siblings with
  | zero =>
    refine once_of_below within different fun top member => ?_
    have none : (nodeAt source top).children = [] := within top member
    intro first second index followed
    rw [none, follow?_nil] at followed
    cases followed
  | succ fewer ih =>
    refine once_of_below within different fun top member => ih (within top member) ?_
    have each := (List.nodup_flatMap.mp different).1 top member
    exact (List.nodup_cons.mp each).2

/-- Whether a scene reaches every node at most once can be seen from one walk. -/
theorem reachedOnce_iff
    {scene : Gltf.Scene} :
    ReachedOnce source scene ↔
      (∀ root ∈ scene.nodes, Within source source.document.nodes.size root) ∧
        (scene.nodes.flatMap (visits source source.document.nodes.size)).Nodup :=
  ⟨fun once => ⟨within_of_once once, nodup_visits once _⟩,
    fun walk => once_of_nodup walk.1 walk.2⟩

end Visits

section Checks

variable (source : Source)

instance decidableWithin : ∀ levels index, Decidable (Within source levels index)
  | 0, index => inferInstanceAs (Decidable ((nodeAt source index).children = []))
  | fewer + 1, index =>
      have := decidableWithin fewer
      inferInstanceAs (Decidable (∀ child ∈ (nodeAt source index).children, Within source fewer child))

instance decidableReachedOnce (scene : Gltf.Scene) : Decidable (ReachedOnce source scene) :=
  decidable_of_iff _ reachedOnce_iff.symm

end Checks

end SceneMarkup.Loading
