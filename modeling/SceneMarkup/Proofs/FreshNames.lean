import Mathlib.Data.List.Nodup
import Mathlib.Data.Nat.SuccPred
import Mathlib.Tactic.FinCases
import SceneMarkup.Loading.Registry
import SceneMarkup.Proofs.LoopSteps

namespace SceneMarkup.Text

/-!
# Fresh names are fresh

There are more spellings in the search than names taken, so with different
spellings one of them is free.  Numbered spellings of one base are different.

A name that is asked for is cleaned and then tried with one number after another
behind it until a spelling is free.  The search has no bound of its own; it ends
because more spellings can be tried than there are names taken.  What is found is
taken from then on, so whatever is asked for, no name is given twice.
-/

section Search

variable {taken : List String} {spelling : Nat → String}

/-- No more attempts are in vain than there are names taken. -/
theorem attempts_le
    (different : Function.Injective spelling)
    {attempt : Nat}
    (tried : ∀ earlier < attempt, spelling earlier ∈ taken) :
    attempt ≤ taken.length := by
  have spelled : ((List.range attempt).map spelling).Nodup :=
    List.Nodup.map different List.nodup_range
  have all : (List.range attempt).map spelling ⊆ taken := by
    intro name listed
    obtain ⟨earlier, member, rfl⟩ := List.mem_map.mp listed
    exact tried earlier (List.mem_range.mp member)
  have fewer := (List.subperm_of_subset spelled all).length_le
  rwa [List.length_map, List.length_range] at fewer

/-- Among one spelling more than there are names taken one is free. -/
theorem exists_free
    (different : Function.Injective spelling)
    (taken : List String) :
    ∃ attempt < taken.length + 1, spelling attempt ∉ taken := by
  by_contra none
  push Not at none
  -- Otherwise the names taken would hold one spelling more than there are names.
  exact absurd (attempts_le different none) (Nat.not_succ_le_self _)

/-- The search finds the first spelling that is not taken. -/
theorem firstFree_spec
    (different : Function.Injective spelling)
    (taken : List String) :
    ∃ attempt,
      firstFree taken spelling = spelling attempt ∧
        spelling attempt ∉ taken ∧
        ∀ earlier < attempt, spelling earlier ∈ taken := by
  unfold firstFree
  cases found :
      (List.range (taken.length + 1)).find? fun attempt => !taken.contains (spelling attempt) with
  | none =>
      obtain ⟨attempt, inside, free⟩ := exists_free different taken
      have contrary := List.find?_eq_none.mp found attempt (List.mem_range.mpr inside)
      simp [free] at contrary
  | some attempt =>
      obtain ⟨free, _, earlier⟩ := List.find?_range_eq_some.mp found
      refine ⟨attempt, rfl, by simpa using free, fun first before => ?_⟩
      simpa using earlier first before

/-- The spelling that is found is not taken. -/
theorem firstFree_not_mem
    (different : Function.Injective spelling) :
    firstFree taken spelling ∉ taken := by
  obtain ⟨attempt, same, free, _⟩ := firstFree_spec different taken
  rw [same]
  exact free

end Search

/-- Different numbers are written differently: their digits give them back. -/
theorem toString_injective :
    Function.Injective (toString : Nat → String) := by
  intro first second same
  have digits := congrArg (fun text => Nat.ofDigitChars 10 text.toList 0) same
  simpa only [Nat.toString_eq_repr, Nat.toList_repr,
    Nat.ofDigitChars_toDigits (show 1 < 10 by decide) (show 10 ≤ 10 by decide)] using digits

/-- Different attempts are spelled differently. -/
theorem numbered_injective
    (separator base : String) :
    Function.Injective (numbered separator base) := by
  have longer : ∀ count : Nat, base ≠ base ++ separator ++ toString count := by
    intro count same
    have lengths := congrArg String.length same
    have digits : 0 < (toString count).length := Nat.length_repr_pos
    simp only [String.length_append] at lengths
    omega
  intro first second same
  unfold numbered at same
  split at same
  next isZero =>
    split at same
    next alsoZero => rw [isZero, alsoZero]
    next => exact absurd same (longer second)
  next =>
    split at same
    next => exact absurd same.symm (longer first)
    next => exact toString_injective ((String.append_right_inj _).mp same)

section Searching

/-- A search for a free spelling in progress. -/
structure Search where
  /-- The spelling that is tried. -/
  candidate : String
  /-- The number that the next spelling gets. -/
  number : Nat
  deriving Repr, DecidableEq

/-- Go on to the next spelling if the one that is tried is taken. -/
def Search.round? (taken : List String) (separator base : String) (search : Search) :
    Option Search :=
  if taken.contains search.candidate then
    some ⟨base ++ separator ++ toString search.number, search.number + 1⟩
  else none

variable {taken : List String} {separator base : String}

/-- The search goes through the spellings up to the first one that is free. -/
theorem search_ends
    {attempt : Nat}
    (free : numbered separator base attempt ∉ taken)
    (tried : ∀ earlier < attempt, numbered separator base earlier ∈ taken) :
    EndsAfter (Search.round? taken separator base) attempt ⟨base, 1⟩
      ⟨numbered separator base attempt, attempt + 1⟩ := by
  have from_there :
      ∀ remaining start, start + remaining = attempt →
        EndsAfter (Search.round? taken separator base) remaining
          ⟨numbered separator base start, start + 1⟩
          ⟨numbered separator base attempt, attempt + 1⟩ := by
    intro remaining
    induction remaining with
    | zero =>
        rintro start rfl
        refine EndsAfter.rest ?_
        simpa [Search.round?] using free
    | succ remaining ih =>
        intro start there
        have known : taken.contains (numbered separator base start) = true :=
          List.contains_iff_mem.mpr (tried start (by omega))
        exact (ih (start + 1) (by omega)).first (if_pos known)
  exact from_there attempt 0 (Nat.zero_add attempt)

end Searching

end SceneMarkup.Text

namespace SceneMarkup.Loading

open Text (Search numbered isBlank)

section Characters

/-- No character of a name is blank or has a meaning in the paths of animation tracks. -/
def IsClean (name : String) : Prop :=
  ∀ character ∈ name.toList, isBlank character = false ∧ isReserved character = false

theorem isClean_append
    {first second : String}
    (left : IsClean first)
    (right : IsClean second) :
    IsClean (first ++ second) := by
  intro character member
  rw [String.toList_append, List.mem_append] at member
  rcases member with inFirst | inSecond
  · exact left character inFirst
  · exact right character inSecond

theorem isClean_underscore :
    IsClean "_" := by
  intro character member
  obtain rfl : character = '_' := by simpa using member
  decide

theorem isClean_toString
    (number : Nat) :
    IsClean (toString number) := by
  intro character member
  rw [Nat.toString_eq_repr, Nat.repr, String.toList_ofList] at member
  have digit := Nat.isDigit_of_mem_toDigits (by decide) (by decide) member
  have digits : 48 ≤ character.toNat ∧ character.toNat ≤ 57 := by
    simpa [Char.isDigit, UInt32.le_iff_toNat_le] using digit
  constructor
  · rw [← Bool.not_eq_true, isBlank, List.any_eq_true]
    rintro ⟨range, listed, inside⟩
    rw [Bool.and_eq_true, decide_eq_true_eq, decide_eq_true_eq] at inside
    fin_cases listed <;> simp only at inside <;> omega
  · rw [← Bool.not_eq_true, isReserved, List.contains_iff_mem]
    intro reserved
    fin_cases reserved <;> simp at digits

/-- What is cleaned has nothing left to clean. -/
theorem isClean_sanitized
    (name : String) :
    IsClean (sanitized name) := by
  intro character member
  rw [sanitized, String.toList_ofList] at member
  obtain ⟨original, kept, rfl⟩ := List.mem_map.mp member
  have plain := (List.mem_filter.mp kept).2
  split
  next => decide
  next solid => exact ⟨Bool.not_eq_true _ ▸ solid, by simpa using plain⟩

/-- A number behind a clean name leaves it clean. -/
theorem isClean_numbered
    (name : String)
    (attempt : Nat) :
    IsClean (numbered "_" (sanitized name) attempt) := by
  unfold numbered
  split
  next => exact isClean_sanitized name
  next =>
    exact isClean_append (isClean_append (isClean_sanitized name) isClean_underscore)
      (isClean_toString attempt)

end Characters

section Reservations

variable {registry : Registry}

/-- The name is what a request is given when these names are taken. -/
structure Reserved (taken : List String) (asked name : String) : Prop where
  /-- The search ends, after no more rounds than there are names taken, and it ends there. -/
  found :
    ∃ rounds ≤ taken.length,
      EndsAfter (Search.round? taken "_" (sanitized asked)) rounds ⟨sanitized asked, 1⟩
        ⟨name, rounds + 1⟩
  free : name ∉ taken
  clean : IsClean name
  asAsked : sanitized asked ∉ taken → name = sanitized asked
  numbered :
    sanitized asked ∈ taken →
      ∃ number ≥ 1,
        name = sanitized asked ++ "_" ++ toString number ∧
          ∀ smaller ≥ 1, smaller < number → sanitized asked ++ "_" ++ toString smaller ∈ taken

/-- The name that is given is reserved as described. -/
theorem reserved_freshName
    (registry : Registry)
    (asked : String) :
    Reserved registry.taken asked (registry.freshName asked) := by
  obtain ⟨attempt, same, free, tried⟩ :=
    Text.firstFree_spec (Text.numbered_injective "_" (sanitized asked)) registry.taken
  have spelled : ∀ number ≥ 1,
      Text.numbered "_" (sanitized asked) number = sanitized asked ++ "_" ++ toString number :=
    fun number some => if_neg (Nat.ne_of_gt some)
  rw [Registry.freshName, same]
  have few := Text.attempts_le (Text.numbered_injective "_" (sanitized asked)) tried
  refine ⟨⟨attempt, few, Text.search_ends free tried⟩, free, isClean_numbered asked attempt, ?_,
    ?_⟩
  · intro unused
    rcases Nat.eq_zero_or_pos attempt with rfl | later
    · rfl
    · exact absurd (tried 0 later) unused
  · intro used
    have later : attempt ≥ 1 := by
      refine Nat.pos_of_ne_zero ?_
      rintro rfl
      exact free used
    refine ⟨attempt, later, spelled attempt later, fun smaller some before => ?_⟩
    rw [← spelled smaller some]
    exact tried smaller before

/-- Reserving names one after another gives each request its name among those taken before. -/
theorem reserved_mapM
    (asked : List String)
    (registry : Registry) :
    ∃ names after,
      (asked.mapM claimName).run registry = (names, after) ∧
        names.length = asked.length ∧
        names.Nodup ∧
        (∀ name ∈ names, name ∉ registry.taken) ∧
        ∀ place request name, asked[place]? = some request → names[place]? = some name →
          Reserved ((names.take place).reverse ++ registry.taken) request name := by
  induction asked generalizing registry with
  | nil => exact ⟨[], registry, rfl, rfl, List.nodup_nil, by simp, by simp⟩
  | cons first rest ih =>
      have here := reserved_freshName registry first
      generalize fresh : registry.freshName first = name at here
      obtain ⟨names, after, run, size, once, new, each⟩ :=
        ih { registry with taken := name :: registry.taken }
      refine ⟨name :: names, after, ?_, by simp [size], ?_, ?_, ?_⟩
      · have claimed :
            (claimName first).run registry =
              (name, { registry with taken := name :: registry.taken }) := by
          rw [← fresh]
          rfl
        rw [List.mapM_cons, StateT.run_bind, claimed]
        show ((rest.mapM claimName) >>= fun names => pure (name :: names)).run _ = _
        rw [StateT.run_bind, run]
        rfl
      · refine List.nodup_cons.mpr ⟨fun again => ?_, once⟩
        exact new name again List.mem_cons_self
      · intro other member
        rcases List.mem_cons.mp member with rfl | later
        · exact here.free
        · exact fun known => new other later (List.mem_cons_of_mem _ known)
      · intro place request given atRequest atName
        cases place with
        | zero =>
            obtain rfl : first = request := by simpa using atRequest
            obtain rfl : name = given := by simpa using atName
            simpa using here
        | succ place =>
            have later :=
              each place request given (by simpa using atRequest) (by simpa using atName)
            simpa using later

/--
Names that are reserved one after another are different.  Whatever is asked for, each
request gets a name, the search for it ends, and no name holds a blank or a reserved
character.  A request gets what is asked for, cleaned, if that is not taken yet; else
it gets the smallest number behind it with which it is not taken.
-/
theorem reserved_names_apart
    (registry : Registry)
    (asked : List String) :
    let names := ((asked.mapM claimName).run registry).1
    names.length = asked.length ∧
      names.Nodup ∧
      ∀ place request name, asked[place]? = some request → names[place]? = some name →
        Reserved ((names.take place).reverse ++ registry.taken) request name := by
  obtain ⟨names, after, run, size, once, _, each⟩ := reserved_mapM asked registry
  rw [run]
  exact ⟨size, once, each⟩

/-- A numbered spelling is asked for after it was given, and what is cleaned to a name that was
given twice gets the next number. -/
theorem reserved_names_apart_boxes :
    let asked := ["Box", "Box", "Box_1", "B[o]x", "a b"]
    let names := ((asked.mapM claimName).run {}).1
    names = ["Box", "Box_1", "Box_1_1", "Box_2", "a_b"] ∧ names.Nodup ∧
      Reserved ["Box_1_1", "Box_1", "Box"] "B[o]x" "Box_2" := by
  intro asked names
  have given : names = ["Box", "Box_1", "Box_1_1", "Box_2", "a_b"] := by decide +kernel
  obtain ⟨_, once, each⟩ := reserved_names_apart {} asked
  have fourth := each 3 "B[o]x" "Box_2" rfl (congrArg (fun names => names[3]?) given)
  refine ⟨given, once, ?_⟩
  have before : names.take 3 = ["Box", "Box_1", "Box_1_1"] := congrArg (List.take 3) given
  change Reserved ((names.take 3).reverse ++ []) "B[o]x" "Box_2" at fourth
  rw [before] at fourth
  exact fourth

end Reservations

end SceneMarkup.Loading
