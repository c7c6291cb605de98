import Mathlib.Algebra.Order.Ring.Nat
import Mathlib.Data.Nat.SuccPred
import SceneMarkup.Loading.Assembly
import SceneMarkup.Proofs.Growth

namespace SceneMarkup.Loading

open Scene (SceneGraph NodeId)

/-!
# How blueprints are laid in the arena

A blueprint takes a row of places: first its object, then one child after the
other with everything below it.  Placing a blueprint appends that row to the
arena, hangs its first place under the holder, and leaves all else as it was.
-/

namespace Blueprint

mutual

/-- The objects of a blueprint, parents before children. -/
def objects : Blueprint → List Scene.Node
  | .object node _ children => node :: objectsOfAll children

/-- The objects of some blueprints, one after another. -/
def objectsOfAll : List Blueprint → List Scene.Node
  | [] => []
  | first :: rest => objects first ++ objectsOfAll rest

end

mutual

/-- The nodes of the asset that the objects of a blueprint stand for. -/
def stands : Blueprint → List Nat
  | .object _ standsFor children => standsFor.toList ++ standsOfAll children

/-- The nodes of the asset that the objects of some blueprints stand for. -/
def standsOfAll : List Blueprint → List Nat
  | [] => []
  | first :: rest => stands first ++ standsOfAll rest

end

/-- How many places a blueprint takes. -/
def size (blueprint : Blueprint) : Nat :=
  blueprint.objects.length

/-- How many places some blueprints take. -/
def sizeOfAll (blueprints : List Blueprint) : Nat :=
  (objectsOfAll blueprints).length

/-- Where blueprints begin that are laid one after another. -/
def placesFrom : Nat → List Blueprint → List NodeId
  | _, [] => []
  | start, first :: rest => start :: placesFrom (start + first.size) rest

/-- An object is one more than all its children. -/
@[simp] theorem size_object
    (node : Scene.Node)
    (standsFor : Option Nat)
    (children : List Blueprint) :
    (object node standsFor children).size = sizeOfAll children + 1 := by
  rw [size, objects, List.length_cons, sizeOfAll]

@[simp] theorem sizeOfAll_nil : sizeOfAll [] = 0 := by
  rw [sizeOfAll, objectsOfAll, List.length_nil]

@[simp] theorem sizeOfAll_cons
    (first : Blueprint)
    (rest : List Blueprint) :
    sizeOfAll (first :: rest) = first.size + sizeOfAll rest := by
  rw [sizeOfAll, objectsOfAll, List.length_append, size, sizeOfAll]

/-- The second row of blueprints is laid out behind all of the first. -/
theorem placesFrom_append
    (start : Nat)
    (first second : List Blueprint) :
    placesFrom start (first ++ second) =
      placesFrom start first ++ placesFrom (start + sizeOfAll first) second := by
  induction first generalizing start with
  | nil => simp [placesFrom]
  | cons one rest ih =>
    rw [List.cons_append, placesFrom, placesFrom, ih, sizeOfAll_cons, Nat.add_assoc,
      List.cons_append]

/-- Two rows of blueprints stand for the nodes of one and then of the other. -/
theorem standsOfAll_append
    (first second : List Blueprint) :
    standsOfAll (first ++ second) = standsOfAll first ++ standsOfAll second := by
  induction first with
  | nil => rfl
  | cons one rest ih => simp [standsOfAll, ih]

end Blueprint

open Blueprint (placesFrom sizeOfAll standsOfAll)

mutual

/-- A blueprint is laid from a place on, under a holder. -/
def LaidAt (assembled : Assembled) (holder id : Nat) : Blueprint → Prop
  | .object node standsFor children =>
      assembled.graph.node id =
          { node with
            parent := some holder
            children := placesFrom (id + 1) children } ∧
        (∀ index, (index, id) ∈ assembled.standIns ↔ standsFor = some index) ∧
        AllLaidAt assembled id (id + 1) children

/-- Blueprints are laid from a place on, one after another, under one holder. -/
def AllLaidAt (assembled : Assembled) (holder start : Nat) : List Blueprint → Prop
  | [] => True
  | first :: rest =>
      LaidAt assembled holder start first ∧
        AllLaidAt assembled holder (start + first.size) rest

end

/-- Two rows are laid out if each is, the second behind the first. -/
theorem allLaidAt_append
    {assembled : Assembled}
    {holder start : Nat}
    {first second : List Blueprint} :
    AllLaidAt assembled holder start (first ++ second) ↔
      AllLaidAt assembled holder start first ∧
        AllLaidAt assembled holder (start + sizeOfAll first) second := by
  induction first generalizing start with
  | nil => simp [AllLaidAt]
  | cons one rest ih =>
    rw [List.cons_append, AllLaidAt, AllLaidAt, ih, Blueprint.sizeOfAll_cons, Nat.add_assoc,
      and_assoc]

/-- What stands at a place, and what it stands for, is the same before and after. -/
structure Keeps (before after : Assembled) (id : NodeId) : Prop where
  node : after.graph.node id = before.graph.node id
  roles : ∀ index, (index, id) ∈ after.standIns ↔ (index, id) ∈ before.standIns

/-- What two changes keep is kept through both. -/
theorem Keeps.trans
    {first second third : Assembled}
    {id : NodeId}
    (earlier : Keeps first second id)
    (later : Keeps second third id) :
    Keeps first third id where
  node := later.node.trans earlier.node
  roles index := (later.roles index).trans (earlier.roles index)

mutual

/-- A blueprint stays laid out if its places are kept. -/
theorem LaidAt.kept
    {before after : Assembled}
    {holder id : Nat}
    {blueprint : Blueprint}
    (laid : LaidAt before holder id blueprint)
    (keeps : ∀ place : Nat, id ≤ place → place < id + blueprint.size → Keeps before after place) :
    LaidAt after holder id blueprint := by
  cases blueprint with
  | object node standsFor children =>
    obtain ⟨here, role, below⟩ := laid
    have own := keeps id le_rfl (by simp)
    refine ⟨own.node.trans here, fun index => (own.roles index).trans (role index), ?_⟩
    refine AllLaidAt.kept below fun place least most => keeps place (by omega) ?_
    rw [Blueprint.size_object]
    omega

/-- Blueprints stay laid out if their places are kept. -/
theorem AllLaidAt.kept
    {before after : Assembled}
    {holder start : Nat}
    {blueprints : List Blueprint}
    (laid : AllLaidAt before holder start blueprints)
    (keeps :
      ∀ place : Nat, start ≤ place → place < start + sizeOfAll blueprints → Keeps before after place) :
    AllLaidAt after holder start blueprints := by
  cases blueprints with
  | nil => trivial
  | cons first rest =>
    rw [Blueprint.sizeOfAll_cons] at keeps
    obtain ⟨here, others⟩ := laid
    refine ⟨LaidAt.kept here fun place least most => keeps place least (by omega), ?_⟩
    exact AllLaidAt.kept others fun place least most => keeps place (by omega) (by omega)

end

/-- All stand-ins are in the arena. -/
def Housed (assembled : Assembled) : Prop :=
  ∀ entry ∈ assembled.standIns, entry.2 < assembled.graph.size

/-- A row of places was appended to the arena, and some of them were hung under a holder. -/
structure Appended
    (before after : Assembled)
    (holder : NodeId)
    (places : List NodeId)
    (length : Nat)
    (stands : List Nat) :
    Prop where
  size : after.graph.size = before.graph.size + length
  housed : Housed after
  keeps : ∀ id < before.graph.size, id ≠ holder → Keeps before after id
  hung :
    after.graph.node holder =
      { before.graph.node holder with children := before.graph.children holder ++ places }
  role : ∀ index, (index, holder) ∈ after.standIns ↔ (index, holder) ∈ before.standIns
  stands : after.standIns.map (·.1) = stands.reverse ++ before.standIns.map (·.1)

/-- Two rows that are appended one after the other are appended as one. -/
theorem Appended.trans
    {first second third : Assembled}
    {holder : NodeId}
    {earlyPlaces latePlaces : List NodeId}
    {earlyLength lateLength : Nat}
    {earlyStands lateStands : List Nat}
    (early : Appended first second holder earlyPlaces earlyLength earlyStands)
    (late : Appended second third holder latePlaces lateLength lateStands) :
    Appended first third holder (earlyPlaces ++ latePlaces) (earlyLength + lateLength)
      (earlyStands ++ lateStands) where
  size := by rw [late.size, early.size, Nat.add_assoc]
  housed := late.housed
  keeps id inside differs :=
    (early.keeps id inside differs).trans
      (late.keeps id (early.size ▸ Nat.lt_add_right earlyLength inside) differs)
  hung := by
    rw [late.hung, SceneGraph.children, early.hung, List.append_assoc]
  role index := (late.role index).trans (early.role index)
  stands := by rw [late.stands, early.stands, List.reverse_append, List.append_assoc]

/-- What is hung under a fresh place belongs to the row of that place. -/
theorem Appended.under
    {first second third : Assembled}
    {holder : NodeId}
    {places : List NodeId}
    {length : Nat}
    {earlyStands lateStands : List Nat}
    (inside : holder < first.graph.size)
    (early : Appended first second holder [first.graph.size] 1 earlyStands)
    (late : Appended second third first.graph.size places length lateStands) :
    Appended first third holder [first.graph.size] (length + 1) (earlyStands ++ lateStands) := by
  have keeps :
      ∀ id : Nat, id < first.graph.size → Keeps second third id := by
    intro id before
    refine late.keeps id ?_ (Nat.ne_of_lt before)
    rw [early.size]
    exact Nat.lt_succ_of_lt before
  refine ⟨?_, late.housed, ?_, ?_, ?_, ?_⟩
  · rw [late.size, early.size, Nat.add_assoc, Nat.add_comm 1]
  · exact fun id before differs => (early.keeps id before differs).trans (keeps id before)
  · rw [(keeps holder inside).node, early.hung]
  · exact fun index => ((keeps holder inside).roles index).trans (early.role index)
  · rw [late.stands, early.stands, List.reverse_append, List.append_assoc]

section Placing

namespace Assembled

/-- Hang one object under a holder. -/
def hang
    (assembled : Assembled)
    (holder : NodeId)
    (node : Scene.Node)
    (standsFor : Option Nat) :
    Assembled where
  graph := assembled.graph.add holder node
  standIns :=
    standsFor.elim assembled.standIns fun index =>
      (index, assembled.graph.size) :: assembled.standIns

variable {assembled : Assembled} {holder : NodeId}

/-- An object is hung under its holder, and then its children are placed under it. -/
theorem place_object
    (node : Scene.Node)
    (standsFor : Option Nat)
    (children : List Blueprint) :
    assembled.place holder (.object node standsFor children) =
      (assembled.hang holder node standsFor).placeAll assembled.graph.size children := by
  rw [place]
  rfl

/-- Hanging an object adds a stand-in at the end of the arena, if the object stands for a node. -/
theorem mem_standIns_hang
    {node : Scene.Node}
    {standsFor : Option Nat}
    {entry : Nat × NodeId} :
    entry ∈ (assembled.hang holder node standsFor).standIns ↔
      entry ∈ assembled.standIns ∨
        standsFor = some entry.1 ∧ entry.2 = assembled.graph.size := by
  obtain ⟨index, id⟩ := entry
  cases standsFor with
  | none => simp [hang]
  | some chosen =>
    simp only [hang, Option.elim_some, List.mem_cons, Prod.mk.injEq, Option.some.injEq]
    rw [or_comm, eq_comm]

/-- Hanging an object appends one place. -/
theorem appended_hang
    (housed : Housed assembled)
    (inside : holder < assembled.graph.size)
    (node : Scene.Node)
    (standsFor : Option Nat) :
    Appended assembled (assembled.hang holder node standsFor) holder [assembled.graph.size] 1
      standsFor.toList := by
  have size := SceneGraph.size_add assembled.graph holder node
  have roles :
      ∀ id : Nat, id < assembled.graph.size → ∀ index,
        (index, id) ∈ (assembled.hang holder node standsFor).standIns ↔
          (index, id) ∈ assembled.standIns := by
    intro id before index
    rw [mem_standIns_hang]
    exact or_iff_left fun fresh => absurd fresh.2 (Nat.ne_of_lt before)
  refine ⟨size, ?_, ?_, ?_, roles holder inside, ?_⟩
  · intro entry member
    rcases mem_standIns_hang.mp member with old | ⟨_, here⟩
    · exact (housed entry old).trans_le (by rw [hang, size]; exact Nat.le_succ _)
    · rw [hang, here, size]
      exact Nat.lt_succ_self _
  · intro id before differs
    refine ⟨?_, roles id before⟩
    rw [hang, SceneGraph.node_add inside, if_neg (Nat.ne_of_lt before), if_neg differs]
  · rw [hang, SceneGraph.node_add inside, if_neg (Nat.ne_of_lt inside), if_pos rfl]
  · cases standsFor <;> rfl

/-- The object that was hung stands at the end of the arena, below its holder. -/
theorem node_hang
    (inside : holder < assembled.graph.size)
    (node : Scene.Node)
    (standsFor : Option Nat) :
    (assembled.hang holder node standsFor).graph.node assembled.graph.size =
      { node with parent := some holder, children := [] } := by
  rw [hang, SceneGraph.node_add inside, if_pos rfl]

mutual

/-- Placing a blueprint appends its places and lays it out there. -/
theorem appended_place
    (assembled : Assembled)
    (housed : Housed assembled)
    {holder : NodeId}
    (inside : holder < assembled.graph.size)
    (blueprint : Blueprint) :
    Appended assembled (assembled.place holder blueprint) holder [assembled.graph.size]
        blueprint.size blueprint.stands ∧
      LaidAt (assembled.place holder blueprint) holder assembled.graph.size blueprint := by
  cases blueprint with
  | object node standsFor children =>
    rw [place_object]
    have hung := appended_hang housed inside node standsFor
    have bare := node_hang inside node standsFor
    have within : assembled.graph.size < (assembled.hang holder node standsFor).graph.size := by
      rw [hung.size]
      exact Nat.lt_succ_self _
    obtain ⟨below, laid⟩ := appended_placeAll _ hung.housed within children
    rw [Blueprint.size_object, Blueprint.stands]
    refine ⟨hung.under inside below, ?_, ?_, ?_⟩
    · rw [below.hung, SceneGraph.children, bare, hung.size, List.nil_append]
    · intro index
      have fresh : (index, assembled.graph.size) ∉ assembled.standIns :=
        fun old => Nat.lt_irrefl _ (housed _ old)
      rw [below.role, mem_standIns_hang]
      simp [fresh]
    · rw [hung.size] at laid
      exact laid

/-- Placing blueprints appends the places of all and lays them out in a row. -/
theorem appended_placeAll
    (assembled : Assembled)
    (housed : Housed assembled)
    {holder : NodeId}
    (inside : holder < assembled.graph.size)
    (blueprints : List Blueprint) :
    Appended assembled (assembled.placeAll holder blueprints) holder
        (placesFrom assembled.graph.size blueprints) (sizeOfAll blueprints)
        (standsOfAll blueprints) ∧
      AllLaidAt (assembled.placeAll holder blueprints) holder assembled.graph.size blueprints := by
  cases blueprints with
  | nil =>
    have nothing : assembled.graph.children holder ++ [] = assembled.graph.children holder :=
      List.append_nil _
    refine ⟨⟨rfl, housed, fun id _ _ => ⟨rfl, fun _ => Iff.rfl⟩, ?_, fun _ => Iff.rfl, rfl⟩, trivial⟩
    rw [placesFrom, nothing]
    rfl
  | cons first rest =>
    obtain ⟨here, laidFirst⟩ := appended_place assembled housed inside first
    have within : holder < (assembled.place holder first).graph.size := by
      rw [here.size]
      exact Nat.lt_add_right _ inside
    obtain ⟨others, laidRest⟩ := appended_placeAll _ here.housed within rest
    rw [placeAll, Blueprint.sizeOfAll_cons]
    rw [here.size] at others laidRest
    refine ⟨here.trans others, LaidAt.kept laidFirst ?_, laidRest⟩
    intro place least most
    refine others.keeps place (by rw [here.size]; exact most) ?_
    exact Nat.ne_of_gt (Nat.lt_of_lt_of_le inside least)

end

end Assembled

end Placing

section Traits

variable {trait : Scene.Node → α}

/-- What links do not change. -/
def Unlinked (trait : Scene.Node → α) : Prop :=
  ∀ (node : Scene.Node) parent children,
    trait { node with parent := parent, children := children } = trait node

/-- Hanging an object adds its traits behind those of the arena. -/
theorem traits_hang
    (unlinked : Unlinked trait)
    (assembled : Assembled)
    (holder : NodeId)
    (node : Scene.Node)
    (standsFor : Option Nat) :
    (assembled.hang holder node standsFor).graph.nodes.toList.map trait =
      assembled.graph.nodes.toList.map trait ++ [trait node] := by
  have kept :
      ((assembled.graph.modify holder fun upper =>
        { upper with children := upper.children ++ [assembled.graph.size] }).nodes.map trait) =
        assembled.graph.nodes.map trait := by
    apply Array.ext_getElem?
    intro place
    simp only [SceneGraph.modify, Array.getElem?_map, Array.getElem?_modify]
    split
    · rw [Option.map_map]
      exact congrFun (congrArg Option.map (funext fun upper => unlinked upper _ _)) _
    · rfl
  rw [Assembled.hang, SceneGraph.add, Array.toList_push, List.map_append, ← Array.toList_map, kept,
    Array.toList_map]
  exact congrArg _ (congrArg (fun one => [one]) (unlinked node _ _))

mutual

/-- Placing appends the traits of the objects placed. -/
theorem traits_place
    (unlinked : Unlinked trait)
    (assembled : Assembled)
    (holder : NodeId)
    (blueprint : Blueprint) :
    (assembled.place holder blueprint).graph.nodes.toList.map trait =
      assembled.graph.nodes.toList.map trait ++ blueprint.objects.map trait := by
  cases blueprint with
  | object node standsFor children =>
    rw [Assembled.place_object, traits_placeAll unlinked, traits_hang unlinked, List.append_assoc,
      Blueprint.objects]
    rfl

/-- Placing blueprints adds the traits of their objects in order. -/
theorem traits_placeAll
    (unlinked : Unlinked trait)
    (assembled : Assembled)
    (holder : NodeId)
    (blueprints : List Blueprint) :
    (assembled.placeAll holder blueprints).graph.nodes.toList.map trait =
      assembled.graph.nodes.toList.map trait ++ (Blueprint.objectsOfAll blueprints).map trait := by
  cases blueprints with
  | nil => simp [Assembled.placeAll, Blueprint.objectsOfAll]
  | cons first rest =>
    rw [Assembled.placeAll, traits_placeAll unlinked, traits_place unlinked, List.append_assoc,
      Blueprint.objectsOfAll, List.map_append]

end

end Traits

end SceneMarkup.Loading
