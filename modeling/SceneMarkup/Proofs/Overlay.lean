import Mathlib.Data.List.Nodup
import SceneMarkup.Options.Fields
import SceneMarkup.Proofs.Members

namespace SceneMarkup.Options

open Json (Value Members)

/-!
# Settings laid over settings

An object of fields changes the fields that it names and no other one.  It is
refused exactly if it gives a field a value that the field cannot hold.  Two
objects laid over settings one after the other do what one object does that has
the members of the second and what the first one names besides.
-/

/-- The kinds of fields. -/
inductive Kind
  /-- A whole number that fits 32 bits. -/
  | word
  | flag
  /-- A text that may be absent. -/
  | text
  /-- Any value, which may be absent. -/
  | argument

namespace Kind

/-- What a field of the kind holds. -/
def Content : Kind → Type
  | word => UInt32
  | flag => Bool
  | text => Option String
  | argument => Option Value

/-- What a field of the kind holds once it is given a value; nothing if it cannot hold it. -/
def read? : (kind : Kind) → Value → Option kind.Content
  | word => wordOf?
  | flag => flagOf?
  | text => textOf?
  | argument => some ∘ argumentOf

/-- The value that stands for what a field holds. -/
def shown : (kind : Kind) → kind.Content → Value
  | word => fun content : UInt32 => Value.ofNat content.toNat
  | flag => Value.bool
  | text => optionalText
  | argument => fun content : Option Value => content.getD .null

/-- What a field holds once it was shown and read; an argument of null counts as absent. -/
def settled : (kind : Kind) → kind.Content → kind.Content
  | word => id
  | flag => id
  | text => id
  | argument => fun content : Option Value => content.bind argumentOf

/-- The values that are valid for fields of the kind. -/
inductive Accepts : Kind → Value → Prop
  | word (number : UInt32) : Accepts .word (.number (.integer number.toNat))
  | flag (flag : Bool) : Accepts .flag (.bool flag)
  | null : Accepts .text .null
  | text (text : String) : Accepts .text (.text text)
  | argument (value : Value) : Accepts .argument value

section Reading

/-- A word that is written as a number is read back. -/
theorem wordOf?_ofNat
    (content : UInt32) :
    wordOf? (Value.ofNat content.toNat) = some content := by
  have small : content.toNat < UInt32.size := content.toNat_lt
  simp [wordOf?, Value.ofNat, small]

/-- An argument is given by every value but null. -/
theorem argumentOf_eq_some_iff
    {value content : Value} :
    argumentOf value = some content ↔ value = content ∧ content ≠ .null := by
  cases value <;> cases content <;> simp [argumentOf]

/-- What a field shows is read as the settled content. -/
theorem read?_shown
    (kind : Kind)
    (content : kind.Content) :
    kind.read? (kind.shown content) = some (kind.settled content) := by
  cases kind with
  | word => exact wordOf?_ofNat content
  | flag => rfl
  | text => cases content <;> rfl
  | argument => cases content <;> rfl

/-- What was read is as it would be shown and read again. -/
theorem settled_of_read?
    {kind : Kind}
    {value : Value}
    {content : kind.Content}
    (taken : kind.read? value = some content) :
    kind.settled content = content := by
  cases kind with
  | word => rfl
  | flag => rfl
  | text => rfl
  | argument =>
      cases taken
      cases value <;> rfl

/-- Settling a content twice does nothing more. -/
theorem settled_settled
    (kind : Kind)
    (content : kind.Content) :
    kind.settled (kind.settled content) = kind.settled content :=
  settled_of_read? (kind.read?_shown content)

/-- The valid values are those that can be read. -/
theorem accepts_iff
    {kind : Kind}
    {value : Value} :
    kind.Accepts value ↔ ∃ content, kind.read? value = some content := by
  constructor
  · rintro (number | flag | _ | text | value)
    · exact ⟨_, wordOf?_ofNat number⟩
    · exact ⟨_, rfl⟩
    · exact ⟨_, rfl⟩
    · exact ⟨_, rfl⟩
    · exact ⟨_, rfl⟩
  · rintro ⟨content, taken⟩
    cases kind with
    | word =>
        change wordOf? value = some content at taken
        unfold wordOf? at taken
        split at taken
        next number =>
          split at taken
          next fits =>
            have same : number = (UInt32.ofNat number.toNat).toNat := by
              rw [UInt32.toNat_ofNat_of_lt' fits.2]
              exact (Int.toNat_of_nonneg fits.1).symm
            rw [same]
            exact .word _
          next => cases taken
        next => cases taken
    | flag =>
        cases value with
        | bool flag => exact .flag flag
        | _ => cases taken
    | text =>
        cases value with
        | null => exact .null
        | text text => exact .text text
        | _ => cases taken
    | argument => exact .argument value

end Reading

end Kind

/-- The fields, in the order of the record. -/
inductive Field
  | precision
  | keepNames
  | keepGroups
  | shadows
  | includeData
  | types
  | draco
  | instanceShared
  | instanceAll
  | aggressive
  | debug
  | header
  | size
  | root
  | deduplicate
  | formatter
  deriving DecidableEq

namespace Field

/-- The key of a field. -/
def key : Field → String
  | precision => "precision"
  | keepNames => "keepnames"
  | keepGroups => "keepgroups"
  | shadows => "shadows"
  | includeData => "meta"
  | types => "types"
  | draco => "draco"
  | instanceShared => "instance"
  | instanceAll => "instanceall"
  | aggressive => "aggressive"
  | debug => "debug"
  | header => "header"
  | size => "size"
  | root => "root"
  | deduplicate => "transform"
  | formatter => "formatter"

/-- All fields. -/
def all : List Field :=
  [precision, keepNames, keepGroups, shadows, includeData, types, draco, instanceShared,
    instanceAll, aggressive, debug, header, size, root, deduplicate, formatter]

/-- What kind of content a field has. -/
def kind : Field → Kind
  | precision => .word
  | draco => .argument
  | header | size | root | formatter => .text
  | _ => .flag

/-- What settings hold in a field. -/
def get : (field : Field) → Options → field.kind.Content
  | precision => Options.precision
  | keepNames => Options.keepNames
  | keepGroups => Options.keepGroups
  | shadows => Options.shadows
  | includeData => Options.includeData
  | types => Options.types
  | draco => Options.draco
  | instanceShared => Options.instanceShared
  | instanceAll => Options.instanceAll
  | aggressive => Options.aggressive
  | debug => Options.debug
  | header => Options.header
  | size => Options.size
  | root => Options.root
  | deduplicate => Options.deduplicate
  | formatter => Options.formatter

/-- The settings that hold a content for each field. -/
def gather (content : (field : Field) → field.kind.Content) : Options where
  precision := content .precision
  keepNames := content .keepNames
  keepGroups := content .keepGroups
  shadows := content .shadows
  includeData := content .includeData
  types := content .types
  draco := content .draco
  instanceShared := content .instanceShared
  instanceAll := content .instanceAll
  aggressive := content .aggressive
  debug := content .debug
  header := content .header
  size := content .size
  root := content .root
  deduplicate := content .deduplicate
  formatter := content .formatter

/-- The settings with a new content in one field. -/
def put (field : Field) (content : field.kind.Content) (options : Options) : Options :=
  gather (Function.update (fun other => other.get options) field content)

/-- A field of gathered contents is the content it was given. -/
theorem get_gather
    (content : (field : Field) → field.kind.Content)
    (field : Field) :
    field.get (gather content) = content field := by
  cases field <;> rfl

/-- Settings are known by what they hold in every field. -/
theorem ext_get
    {first second : Options}
    (same : ∀ field : Field, field.get first = field.get second) :
    first = second :=
  congrArg gather (funext same)

/-- Putting one field changes that field alone. -/
theorem get_put
    (field : Field)
    (content : field.kind.Content)
    (options : Options)
    (other : Field) :
    other.get (field.put content options) =
      Function.update (fun other => other.get options) field content other :=
  get_gather _ other

/-- Every field is in the list of fields. -/
theorem mem_all
    (field : Field) :
    field ∈ all := by
  cases field <;> decide

/-- Different fields have different keys. -/
theorem key_injective
    {first second : Field}
    (same : first.key = second.key) :
    first = second := by
  have distinct : ∀ first ∈ all, ∀ second ∈ all, first.key = second.key → first = second := by
    decide
  exact distinct first (mem_all first) second (mem_all second) same

theorem canonicalName_key
    (field : Field) :
    canonicalName field.key = field.key := by
  cases field <;> rfl

/-- The known keys are those of the fields. -/
theorem mem_fieldNames_iff
    {key : String} :
    key ∈ fieldNames ↔ ∃ field : Field, field.key = key := by
  have listed : fieldNames = all.map Field.key := rfl
  simp only [listed, List.mem_map, mem_all, true_and]

/-- Setting a field reads the value as the field's kind does. -/
theorem set?_key
    (options : Options)
    (field : Field)
    (value : Value) :
    options.set? field.key value =
      (field.kind.read? value).map fun content => field.put content options := by
  cases field <;> rfl

/-- A member with an unknown key is passed over. -/
theorem set?_of_unknown
    (options : Options)
    {key : String}
    (unknown : key ∉ fieldNames)
    (value : Value) :
    options.set? key value = some options := by
  unfold set?
  split <;> first | rfl | exact absurd (by decide) unknown

end Field

/-- An object of fields: one member a key, and `keepnames` in one spelling only. -/
structure Plain (overlay : Members) : Prop where
  distinct : overlay.keys.Nodup
  single : ¬ ("verbose" ∈ overlay.keys ∧ "keepnames" ∈ overlay.keys)

instance (overlay : Members) : Decidable (Plain overlay) :=
  decidable_of_iff
    (overlay.keys.Nodup ∧ ¬ ("verbose" ∈ overlay.keys ∧ "keepnames" ∈ overlay.keys))
    ⟨fun ⟨distinct, single⟩ => ⟨distinct, single⟩, fun plain => ⟨plain.distinct, plain.single⟩⟩

/-- The members with every key in its first spelling. -/
def canonical (overlay : Members) : Members :=
  overlay.map fun member => (canonicalName member.1, member.2)

/-- The value that an object gives to a field. -/
def given? (overlay : Members) (field : Field) : Option Value :=
  (canonical overlay).get? field.key

/-- The settings with an argument of null taken as absent. -/
def settled (options : Options) : Options :=
  Field.gather fun field => field.kind.settled (field.get options)

/-- The members whose fields another object does not name. -/
def untouched (overlay other : Members) : Members :=
  overlay.filter fun member => canonicalName member.1 ∉ (canonical other).keys

/-- The object of the second members, and of the first ones whose fields the second leave. -/
def overwritten (first second : Members) : Members :=
  Members.ofList (untouched first second ++ second)

/-- The members that name a field. -/
def known (overlay : Members) : Members :=
  overlay.filter fun member => fieldNames.contains (canonicalName member.1)

/-- Set one field after another. -/
def setAll? (fields : Members) (options : Options) : Option Options :=
  fields.foldlM (fun options field => options.set? field.1 field.2) options

section Canonical

/-- The alias is replaced in the keys and nothing else is. -/
theorem keys_canonical
    (overlay : Members) :
    (canonical overlay).keys = overlay.keys.map canonicalName := by
  simp only [canonical, Members.keys, List.map_map, Function.comp_def]

/-- No key is the alias once it is replaced. -/
theorem canonicalName_ne_verbose
    (key : String) :
    canonicalName key ≠ "verbose" := by
  unfold canonicalName
  split
  next => decide
  next other => exact other

/-- Two keys of a plain overlay that mean one field are one key. -/
theorem eq_of_canonicalName
    {overlay : Members}
    (plain : Plain overlay)
    {first second : String}
    (one : first ∈ overlay.keys)
    (another : second ∈ overlay.keys)
    (same : canonicalName first = canonicalName second) :
    first = second := by
  unfold canonicalName at same
  split at same
  next verbose =>
    split at same
    next again => exact verbose.trans again.symm
    next => exact (plain.single ⟨verbose ▸ one, same ▸ another⟩).elim
  next =>
    split at same
    next verbose => exact (plain.single ⟨verbose ▸ another, same ▸ one⟩).elim
    next => exact same

/-- A plain object names no field twice. -/
theorem Plain.nodup_canonical
    {overlay : Members}
    (plain : Plain overlay) :
    (canonical overlay).keys.Nodup := by
  rw [keys_canonical]
  refine List.Nodup.map_on (fun _ one _ another same => ?_) plain.distinct
  exact eq_of_canonicalName plain one another same

/-- A plain overlay gives a field the value of the one member that means it. -/
theorem given?_eq_some_iff
    {overlay : Members}
    (plain : Plain overlay)
    {field : Field}
    {value : Value} :
    given? overlay field = some value ↔
      ∃ key, canonicalName key = field.key ∧ (key, value) ∈ overlay := by
  unfold given?
  rw [Members.get?_eq_some_iff plain.nodup_canonical]
  unfold canonical
  constructor
  · intro listed
    obtain ⟨⟨key, _⟩, member, same⟩ := List.mem_map.mp listed
    simp only [Prod.mk.injEq] at same
    obtain ⟨same, rfl⟩ := same
    exact ⟨key, same, member⟩
  · rintro ⟨key, same, listed⟩
    exact List.mem_map.mpr ⟨_, listed, congrArg (·, value) same⟩

end Canonical

section Fields

/-- Fields that are set once hold what their values read as, and the others what they held. -/
theorem setAll?_eq_some_iff
    {fields : Members}
    (distinct : (fields.keys.filter fieldNames.contains).Nodup)
    {start result : Options} :
    setAll? fields start = some result ↔
      ∀ field : Field,
        match fields.get? field.key with
        | some value => field.kind.read? value = some (field.get result)
        | none => field.get result = field.get start := by
  induction fields generalizing start with
  | nil =>
      constructor
      · intro same field
        cases same
        rfl
      · intro same
        exact congrArg some (Field.ext_get same).symm
  | cons member rest ih =>
      obtain ⟨key, value⟩ := member
      unfold setAll? at ih ⊢
      rw [List.foldlM_cons]
      by_cases known : key ∈ fieldNames
      · obtain ⟨own, rfl⟩ := Field.mem_fieldNames_iff.mp known
        have listed : (Members.keys ((own.key, value) :: rest)).filter fieldNames.contains =
            own.key :: (Members.keys rest).filter fieldNames.contains :=
          List.filter_cons_of_pos (List.contains_iff_mem.mpr known)
        obtain ⟨fresh, distinct⟩ := List.nodup_cons.mp (listed ▸ distinct)
        have absent : Members.get? rest own.key = none :=
          Members.get?_eq_none_iff.mpr fun member =>
            fresh (List.mem_filter.mpr ⟨member, List.contains_iff_mem.mpr known⟩)
        rw [Field.set?_key]
        cases taken : own.kind.read? value with
        | none =>
            refine iff_of_false (by simp) fun all => ?_
            have refused := all own
            rw [Members.get?_cons, if_pos rfl] at refused
            cases taken.symm.trans refused
        | some content =>
            refine (ih distinct).trans (forall_congr' fun field => ?_)
            rw [Members.get?_cons]
            by_cases same : own = field
            · subst same
              simp [absent, taken, Field.get_put, eq_comm]
            · rw [if_neg (mt Field.key_injective same), Field.get_put,
                Function.update_of_ne (Ne.symm same)]
      · rw [Field.set?_of_unknown start known]
        have left : (Members.keys ((key, value) :: rest)).filter fieldNames.contains =
            (Members.keys rest).filter fieldNames.contains :=
          List.filter_cons_of_neg (mt List.contains_iff_mem.mp known)
        refine (ih (left ▸ distinct)).trans (forall_congr' fun field => ?_)
        have other : key ≠ field.key := fun same =>
          known (Field.mem_fieldNames_iff.mpr ⟨field, same.symm⟩)
        rw [Members.get?_cons, if_neg other]

/-- The members that show the fields, in the order of the record. -/
def shownFields (options : Options) : Members :=
  Field.all.map fun field => (field.key, field.kind.shown (field.get options))

/-- Options show all their fields, in the order of the record. -/
theorem keys_shownFields
    (options : Options) :
    options.shownFields.keys = fieldNames :=
  rfl

theorem nodup_shownFields
    (options : Options) :
    options.shownFields.keys.Nodup := by
  rw [keys_shownFields]
  decide

/-- The members of options are the fields that are shown, sorted. -/
theorem mem_toMembers_iff
    (options : Options)
    {member : String × Value} :
    member ∈ options.toMembers ↔ member ∈ options.shownFields :=
  Members.mem_ofList_iff options.nodup_shownFields

/-- The members of options are sorted by key. -/
theorem sorted_toMembers
    (options : Options) :
    options.toMembers.Sorted :=
  Members.sorted_ofList options.shownFields

/-- Each field is shown under its key. -/
theorem get?_toMembers
    (options : Options)
    (field : Field) :
    options.toMembers.get? field.key = some (field.kind.shown (field.get options)) := by
  refine (Members.get?_eq_some_iff options.sorted_toMembers.nodup).mpr ?_
  exact options.mem_toMembers_iff.mpr (List.mem_map_of_mem field.mem_all)

theorem verbose_not_mem_toMembers
    (options : Options) :
    "verbose" ∉ options.toMembers.keys := by
  intro listed
  obtain ⟨member, listed, same⟩ := List.mem_map.mp listed
  obtain ⟨field, _, rfl⟩ := List.mem_map.mp (options.mem_toMembers_iff.mp listed)
  exact canonicalName_ne_verbose _ (field.canonicalName_key.trans same)

/-- Settling options settles every field. -/
theorem get_settled
    (options : Options)
    (field : Field) :
    field.get options.settled = field.kind.settled (field.get options) :=
  Field.get_gather _ field

/-- Settings without an argument of null are as they are. -/
theorem settled_of_ne
    {options : Options}
    (present : options.draco ≠ some .null) :
    options.settled = options := by
  refine Field.ext_get fun field => ?_
  rw [get_settled]
  cases field with
  | draco =>
      show options.draco.bind argumentOf = options.draco
      cases given : options.draco with
      | none => rfl
      | some argument =>
          exact Kind.argumentOf_eq_some_iff.mpr ⟨rfl, fun null => present (null ▸ given)⟩
  | _ => rfl

/-- Members without the alias are canonical. -/
theorem canonical_of_not_mem
    {fields : Members}
    (absent : "verbose" ∉ fields.keys) :
    canonical fields = fields := by
  refine (List.map_congr_left fun member listed => ?_).trans (List.map_id fields)
  have other : member.1 ≠ "verbose" := fun same => absent (same ▸ List.mem_map_of_mem listed)
  exact congrArg (·, member.2) (if_neg other)

/-- Options are read from members if no known field is given twice and each value fits. -/
theorem ofFields?_eq
    (fields : Members) :
    ofFields? fields =
      if ((canonical fields).keys.filter fieldNames.contains).Nodup then
        setAll? (canonical fields) {}
      else none := by
  rfl

/-- Merging inserts the overlay among the members of the options and reads the result. -/
theorem merged?_eq
    (options : Options)
    (overlay : Members) :
    options.merged? overlay = ofFields? ((canonical overlay).insertAll options.toMembers) := by
  unfold merged? canonical Members.insertAll
  rw [List.foldl_map]

/--
What is laid over settings decides the fields that it names, and the settings
decide the others.
-/
theorem merged?_eq_some_iff
    {overlay : Members}
    (plain : Plain overlay)
    {options result : Options} :
    options.merged? overlay = some result ↔
      ∀ field : Field,
        match given? overlay field with
        | some value => field.kind.read? value = some (field.get result)
        | none => field.get result = field.get options.settled := by
  have sorted := Members.sorted_insertAll (canonical overlay) options.sorted_toMembers
  have found := Members.get?_insertAll plain.nodup_canonical options.toMembers
  rw [merged?_eq]
  generalize (canonical overlay).insertAll options.toMembers = fields at sorted found
  have absent : "verbose" ∉ fields.keys := by
    rw [← Members.get?_eq_none_iff, found, Option.or_eq_none_iff]
    refine ⟨Members.get?_eq_none_iff.mpr fun listed => ?_,
      Members.get?_eq_none_iff.mpr options.verbose_not_mem_toMembers⟩
    obtain ⟨key, _, same⟩ := List.mem_map.mp (keys_canonical overlay ▸ listed)
    exact canonicalName_ne_verbose key same
  have distinct := sorted.nodup.filter fieldNames.contains
  rw [ofFields?_eq, canonical_of_not_mem absent, if_pos distinct, setAll?_eq_some_iff distinct]
  refine forall_congr' fun field => ?_
  rw [found, options.get?_toMembers, given?]
  cases (canonical overlay).get? field.key with
  | some value => rfl
  | none =>
      simp only [Option.none_or, Kind.read?_shown, Option.some.injEq, get_settled, eq_comm]

end Fields

section Overlays

/-- An overlay gives a field nothing exactly if its key is missing. -/
theorem given?_eq_none_iff
    {overlay : Members}
    {field : Field} :
    given? overlay field = none ↔ field.key ∉ (canonical overlay).keys :=
  Members.get?_eq_none_iff

/-- An overlay is accepted exactly if every field can hold the value that it is given. -/
theorem exists_merged?_iff
    {overlay : Members}
    (plain : Plain overlay)
    {options : Options} :
    (∃ result, options.merged? overlay = some result) ↔
      ∀ (field : Field) (value : Value),
        given? overlay field = some value → field.kind.Accepts value := by
  simp only [merged?_eq_some_iff plain, Kind.accepts_iff]
  constructor
  · rintro ⟨result, all⟩ field value given
    have taken := all field
    rw [given] at taken
    exact ⟨_, taken⟩
  · intro valid
    have each : ∀ field : Field, ∃ content : field.kind.Content,
        match given? overlay field with
        | some value => field.kind.read? value = some content
        | none => content = field.get options.settled := by
      intro field
      cases given : given? overlay field with
      | some value => exact valid field value given
      | none => exact ⟨_, rfl⟩
    choose content chosen using each
    refine ⟨Field.gather content, fun field => ?_⟩
    rw [Field.get_gather]
    exact chosen field

/-- A part of a plain overlay is plain. -/
theorem Plain.sublist
    {part overlay : Members}
    (plain : Plain overlay)
    (inside : part.Sublist overlay) :
    Plain part := by
  have keys : part.keys.Sublist overlay.keys := inside.map _
  exact ⟨plain.distinct.sublist keys,
    fun both => plain.single ⟨keys.subset both.1, keys.subset both.2⟩⟩

/-- Only what is given to the fields has an effect. -/
theorem merged?_congr
    {first second : Members}
    (former : Plain first)
    (later : Plain second)
    (same : ∀ field, given? first field = given? second field)
    (options : Options) :
    options.merged? first = options.merged? second := by
  refine Option.ext fun result => ?_
  simp only [merged?_eq_some_iff former, merged?_eq_some_iff later, same]

/-- Members that name no field have no effect. -/
theorem merged?_known
    {overlay : Members}
    (plain : Plain overlay)
    (options : Options) :
    options.merged? (known overlay) = options.merged? overlay := by
  have fewer : Plain (known overlay) := plain.sublist List.filter_sublist
  refine merged?_congr fewer plain (fun field => Option.ext fun value => ?_) options
  rw [given?_eq_some_iff fewer, given?_eq_some_iff plain]
  simp only [known, List.mem_filter, ← and_assoc]
  refine exists_congr fun key => and_iff_left_of_imp fun ⟨same, _⟩ => ?_
  rw [same]
  exact List.contains_iff_mem.mpr (Field.mem_fieldNames_iff.mpr ⟨field, rfl⟩)

/-- Settings that come out of an overlay hold no argument of null. -/
theorem settled_of_merged?
    {overlay : Members}
    (plain : Plain overlay)
    {options result : Options}
    (laid : options.merged? overlay = some result) :
    result.settled = result := by
  refine Field.ext_get fun field => ?_
  rw [get_settled]
  have held := (merged?_eq_some_iff plain).mp laid field
  cases given : given? overlay field with
  | some value =>
      rw [given] at held
      exact Kind.settled_of_read? held
  | none =>
      rw [given] at held
      change field.get result = _ at held
      rw [held, get_settled, Kind.settled_settled]

/-- An overlay in which no field is meant twice is plain. -/
theorem plain_of_nodup_canonical
    {overlay : Members}
    (distinct : (canonical overlay).keys.Nodup) :
    Plain overlay := by
  rw [keys_canonical] at distinct
  refine ⟨distinct.of_map, fun ⟨verbose, keepNames⟩ => ?_⟩
  have same := List.inj_on_of_nodup_map distinct verbose keepNames rfl
  exact absurd same (by decide)

/-- A plain overlay on top of what it leaves untouched is plain. -/
theorem plain_untouched_append
    {first second : Members}
    (former : Plain first)
    (later : Plain second) :
    Plain (untouched first second ++ second) := by
  apply plain_of_nodup_canonical
  have apart : (canonical (untouched first second ++ second)).keys =
      (canonical (untouched first second)).keys ++ (canonical second).keys := by
    simp only [canonical, Members.keys, List.map_append]
  rw [apart]
  have fewer : Plain (untouched first second) := former.sublist List.filter_sublist
  refine fewer.nodup_canonical.append later.nodup_canonical fun key left right => ?_
  rw [keys_canonical] at left
  obtain ⟨own, named, rfl⟩ := List.mem_map.mp left
  obtain ⟨member, listed, rfl⟩ := List.mem_map.mp named
  exact of_decide_eq_true (List.mem_filter.mp listed).2 right

/-- One overlay over another keeps the members of the first that the second does not mean. -/
theorem mem_overwritten_iff
    {first second : Members}
    (former : Plain first)
    (later : Plain second)
    {member : String × Value} :
    member ∈ overwritten first second ↔
      member ∈ first ∧ canonicalName member.1 ∉ (canonical second).keys ∨ member ∈ second := by
  unfold overwritten
  rw [Members.mem_ofList_iff (plain_untouched_append former later).distinct, List.mem_append,
    untouched, List.mem_filter, decide_eq_true_iff]

/-- One plain overlay over another is plain. -/
theorem plain_overwritten
    {first second : Members}
    (former : Plain first)
    (later : Plain second) :
    Plain (overwritten first second) := by
  have plain := plain_untouched_append former later
  have listed : (overwritten first second).keys ⊆ Members.keys (untouched first second ++ second) :=
    List.map_subset _ fun member listed => (Members.mem_ofList_iff plain.distinct).mp listed
  refine ⟨(Members.sorted_ofList _).nodup, fun both => ?_⟩
  exact plain.single ⟨listed both.1, listed both.2⟩

/-- One overlay over another gives a field what the second gives, else what the first gives. -/
theorem given?_overwritten
    {first second : Members}
    (former : Plain first)
    (later : Plain second)
    (field : Field) :
    given? (overwritten first second) field = (given? second field).or (given? first field) := by
  refine Option.ext fun value => ?_
  rw [given?_eq_some_iff (plain_overwritten former later), Option.or_eq_some_iff,
    given?_eq_none_iff, given?_eq_some_iff former, given?_eq_some_iff later]
  simp only [mem_overwritten_iff former later]
  constructor
  · rintro ⟨key, same, ⟨listed, free⟩ | listed⟩
    · exact .inr ⟨same ▸ free, key, same, listed⟩
    · exact .inl ⟨key, same, listed⟩
  · rintro (⟨key, same, listed⟩ | ⟨free, key, same, listed⟩)
    · exact ⟨key, same, .inr listed⟩
    · exact ⟨key, same, .inl ⟨listed, same ▸ free⟩⟩

/-- Two overlays in a row are one overlay, in which the later one has its way. -/
theorem merged?_overwritten
    {first second : Members}
    (former : Plain first)
    (later : Plain second)
    {options middle result : Options}
    (begun : options.merged? first = some middle)
    (done : middle.merged? second = some result) :
    options.merged? (overwritten first second) = some result := by
  refine (merged?_eq_some_iff (plain_overwritten former later)).mpr fun field => ?_
  rw [given?_overwritten former later]
  have one := (merged?_eq_some_iff former).mp begun field
  have two := (merged?_eq_some_iff later).mp done field
  cases given : given? second field with
  | some value =>
      rw [given] at two
      exact two
  | none =>
      rw [given] at two
      change field.get result = _ at two
      rw [settled_of_merged? former begun] at two
      rw [Option.none_or, two]
      exact one

/--
Settings are laid over field by field.  An overlay is accepted exactly if every
field can hold the value that it is given; then the fields that are given a value
hold what it reads as, and the others hold what they held.  Members that name no
field have no effect, and two overlays in a row are one.
-/
theorem merged?_fieldwise
    (options : Options)
    {overlay : Members}
    (plain : Plain overlay) :
    ((∃ result, options.merged? overlay = some result) ↔
      ∀ (field : Field) (value : Value),
        given? overlay field = some value → field.kind.Accepts value) ∧
    (∀ result, options.merged? overlay = some result ↔
      ∀ field : Field,
        match given? overlay field with
        | some value => field.kind.read? value = some (field.get result)
        | none => field.get result = field.get options.settled) ∧
    options.merged? [] = some options.settled ∧
    (options.draco ≠ some .null → options.settled = options) ∧
    options.merged? (known overlay) = options.merged? overlay ∧
    ∀ (later : Members) (middle result : Options),
      Plain later →
        options.merged? overlay = some middle →
          middle.merged? later = some result →
            options.merged? (overwritten overlay later) = some result := by
  have blank : Plain [] := ⟨List.nodup_nil, fun both => List.not_mem_nil both.1⟩
  refine ⟨exists_merged?_iff plain, fun result => merged?_eq_some_iff plain, ?_, settled_of_ne,
    merged?_known plain options, ?_⟩
  · exact (merged?_eq_some_iff blank).mpr fun field => rfl
  · intro later middle result plainLater begun done
    exact merged?_overwritten plain plainLater begun done

/-- A first overlay in the second spelling and with a member of no field, and one after it. -/
theorem merged?_fieldwise_verbose :
    let options : Options := { shadows := true, draco := some (.text "/draco/") }
    let overlay : Members :=
      [("colour", .text "red"), ("draco", .null), ("precision", Value.ofNat 4),
        ("verbose", .bool true)]
    let later : Members := [("keepnames", .bool false), ("size", .text "2 kB")]
    Plain overlay ∧
      overwritten overlay later =
        [("colour", .text "red"), ("draco", .null), ("keepnames", .bool false),
          ("precision", Value.ofNat 4), ("size", .text "2 kB")] ∧
      options.merged? (overwritten overlay later) =
        some { shadows := true, precision := 4, size := some "2 kB" } := by
  intro options overlay later
  have plain : Plain overlay := by
    decide
  have plainLater : Plain later := by
    decide
  obtain ⟨_, _, _, _, _, joined⟩ := merged?_fieldwise options plain
  have begun : options.merged? overlay =
      some { shadows := true, precision := 4, keepNames := true } := by
    refine (merged?_eq_some_iff plain).mpr fun field => ?_
    cases field <;> rfl
  have done : Options.merged? { shadows := true, precision := 4, keepNames := true } later =
      some { shadows := true, precision := 4, size := some "2 kB" } := by
    refine (merged?_eq_some_iff plainLater).mpr fun field => ?_
    cases field <;> rfl
  exact ⟨plain, rfl, joined later _ _ plainLater begun done⟩

end Overlays

end SceneMarkup.Options
