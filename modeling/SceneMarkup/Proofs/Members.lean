import Mathlib.Data.List.Perm.Basic
import Mathlib.Data.String.Basic
import SceneMarkup.Json.Value

namespace SceneMarkup.Json.Members

/-!
# Objects as maps

Setting a member changes what is found at its key and nothing else, and it keeps
the members sorted, so no key is ever listed twice.  Members with keys of their
own are all kept when they are set one after another.
-/

/-- The keys of the members, as they are listed. -/
def keys (members : Members) : List String :=
  members.map (·.1)

/-- Every key is less than the keys after it. -/
def Sorted (members : Members) : Prop :=
  members.keys.Pairwise (· < ·)

/-- Set members one after another. -/
def insertAll (fields members : Members) : Members :=
  fields.foldl (fun sorted field => insert field.1 field.2 sorted) members

section Lookup

theorem get?_cons
    (member : String × Value)
    (rest : Members)
    (key : String) :
    get? (member :: rest) key = if member.1 = key then some member.2 else get? rest key := by
  unfold get?
  by_cases same : member.1 = key
  · simp [same]
  · simp [same]

/-- Inserting a member gives its key the value and leaves the other keys alone. -/
theorem get?_insert
    (key : String)
    (value : Value)
    (members : Members)
    (other : String) :
    get? (insert key value members) other =
      if key = other then some value else get? members other := by
  induction members with
  | nil => exact get?_cons _ _ _
  | cons member rest ih =>
      unfold insert
      split
      next => exact get?_cons _ _ _
      split
      next same =>
        rw [get?_cons, get?_cons]
        simp only [← same]
        split <;> rfl
      next differs =>
        rw [get?_cons, get?_cons, ih]
        by_cases first : member.1 = other
        · rw [if_pos first, if_pos first, if_neg fun same => differs (same.trans first.symm)]
        · rw [if_neg first, if_neg first]

/-- Nothing is found exactly under the keys that are missing. -/
theorem get?_eq_none_iff
    {members : Members}
    {key : String} :
    get? members key = none ↔ key ∉ members.keys := by
  induction members with
  | nil => exact iff_of_true rfl List.not_mem_nil
  | cons member rest ih =>
      rw [get?_cons]
      by_cases same : member.1 = key
      · simp [keys, same]
      · simp only [if_neg same, ih, keys, List.map_cons, List.mem_cons, Ne.symm same, false_or]

/-- Where keys are listed once, what is found is what is listed. -/
theorem get?_eq_some_iff
    {members : Members}
    (distinct : members.keys.Nodup)
    {key : String}
    {value : Value} :
    get? members key = some value ↔ (key, value) ∈ members := by
  induction members with
  | nil => simp [get?]
  | cons member rest ih =>
      obtain ⟨fresh, distinct⟩ := List.nodup_cons.mp distinct
      rw [get?_cons, List.mem_cons]
      by_cases same : member.1 = key
      · subst same
        have absent : (member.1, value) ∉ rest := fun listed =>
          fresh (List.mem_map.mpr ⟨_, listed, rfl⟩)
        rw [if_pos rfl, Option.some.injEq, or_iff_left absent]
        exact ⟨fun found => found ▸ rfl, fun found => (congrArg Prod.snd found).symm⟩
      · have other : (key, value) ≠ member := fun found => same (congrArg Prod.fst found).symm
        rw [if_neg same, ih distinct, or_iff_right other]

/-- Of what is set one after another the latest is found, else what was there. -/
theorem get?_insertAll
    {fields : Members}
    (distinct : fields.keys.Nodup)
    (members : Members)
    (key : String) :
    get? (insertAll fields members) key = (get? fields key).or (get? members key) := by
  induction fields generalizing members with
  | nil => rfl
  | cons field rest ih =>
      obtain ⟨fresh, distinct⟩ := List.nodup_cons.mp distinct
      have taken : get? (insertAll (field :: rest) members) key =
          (get? rest key).or (get? (insert field.1 field.2 members) key) := ih distinct _
      rw [taken, get?_insert, get?_cons]
      by_cases same : field.1 = key
      · rw [if_pos same, if_pos same, get?_eq_none_iff.mpr (same ▸ fresh)]
        rfl
      · rw [if_neg same, if_neg same]

end Lookup

section Order

/-- Inserting a member adds no key but its own. -/
theorem mem_keys_insert
    {key other : String}
    {value : Value}
    {members : Members}
    (listed : other ∈ (insert key value members).keys) :
    other = key ∨ other ∈ members.keys := by
  by_contra absent
  obtain ⟨differs, fresh⟩ := not_or.mp absent
  refine get?_eq_none_iff.mp ?_ listed
  rw [get?_insert, if_neg (Ne.symm differs)]
  exact get?_eq_none_iff.mpr fresh

/-- Members stay sorted when one is inserted. -/
theorem sorted_insert
    (key : String)
    (value : Value)
    {members : Members}
    (sorted : members.Sorted) :
    (insert key value members).Sorted := by
  induction members with
  | nil => exact List.pairwise_singleton _ _
  | cons member rest ih =>
      obtain ⟨least, later⟩ := List.pairwise_cons.mp sorted
      unfold insert
      split
      next less =>
        refine List.pairwise_cons.mpr ⟨fun other listed => ?_, sorted⟩
        rcases List.mem_cons.mp listed with rfl | listed
        · exact less
        · exact less.trans (least other listed)
      split
      next same => exact List.pairwise_cons.mpr ⟨same ▸ least, later⟩
      next reaches differs =>
        refine List.pairwise_cons.mpr ⟨fun other listed => ?_, ih later⟩
        rcases mem_keys_insert listed with rfl | listed
        · exact lt_of_le_of_ne (not_lt.mp reaches) (Ne.symm differs)
        · exact least other listed

/-- Members stay sorted when others are inserted. -/
theorem sorted_insertAll
    (fields : Members)
    {members : Members}
    (sorted : members.Sorted) :
    (insertAll fields members).Sorted := by
  induction fields generalizing members with
  | nil => exact sorted
  | cons field rest ih => exact ih (sorted_insert field.1 field.2 sorted)

/-- Members that were inserted one by one are sorted. -/
theorem sorted_ofList
    (fields : List (String × Value)) :
    (ofList fields).Sorted :=
  sorted_insertAll fields List.Pairwise.nil

/-- Sorted members have different keys. -/
theorem Sorted.nodup
    {members : Members}
    (sorted : members.Sorted) :
    members.keys.Nodup :=
  sorted.imp ne_of_lt

/-- Members with keys of their own are all kept. -/
theorem mem_ofList_iff
    {fields : List (String × Value)}
    (distinct : (keys fields).Nodup)
    {member : String × Value} :
    member ∈ ofList fields ↔ member ∈ fields := by
  have found : get? (ofList fields) member.1 = get? fields member.1 := by
    have taken := get?_insertAll distinct [] member.1
    rwa [show get? [] member.1 = none from rfl, Option.or_none] at taken
  have listed : get? (ofList fields) member.1 = some member.2 ↔ member ∈ ofList fields :=
    get?_eq_some_iff (sorted_ofList fields).nodup
  rw [found] at listed
  exact listed.symm.trans (get?_eq_some_iff distinct)

end Order

end SceneMarkup.Json.Members
