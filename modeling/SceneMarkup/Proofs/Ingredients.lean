import Mathlib.Algebra.Order.Ring.Nat
import Mathlib.Data.List.Forall2
import Mathlib.Tactic.Tauto
import SceneMarkup.Proofs.Drawings

namespace SceneMarkup.Loading

open Gltf (Document Accessor Sparse ComponentType Dimensions Primitive MorphTarget Semantic Mode)
open Scene (Ingredient Fingerprint)

/-!
# Reading a fingerprint back

The ingredients of a primitive stand in one row without marks between its
accessors.  Where two rows are equal they are cut at the same places: the
elements of an accessor come in pairs of a word and bytes, and nothing that may
follow them begins with such a pair.
-/

section Bytes

/-- The list of bytes from a place on, behind what was gathered before. -/
private theorem listing_from
    (bytes : ByteArray)
    (place : Nat)
    (reversed : List UInt8) :
    ByteArray.toList.loop bytes place reversed =
      reversed.reverse ++ bytes.data.toList.drop place := by
  fun_induction ByteArray.toList.loop bytes place reversed with
  | case1 place reversed inside ih =>
    have here : place < bytes.data.toList.length := inside
    rw [ih, List.drop_eq_getElem_cons here]
    simp [ByteArray.get!, getElem!_pos bytes.data place inside]
  | case2 place reversed outside =>
    have past : bytes.data.toList.length ≤ place := Nat.le_of_not_lt outside
    rw [List.drop_eq_nil_of_le past, List.append_nil]

/-- Bytes are known by their list. -/
theorem toList_inj
    {first second : ByteArray}
    (same : first.toList = second.toList) :
    first = second := by
  simp only [ByteArray.toList, listing_from, List.reverse_nil, List.nil_append, List.drop_zero]
    at same
  exact ByteArray.ext (Array.toList_inj.mp same)

/-- A text and what follows it are known by their ingredients. -/
theorem textIngredients_append_inj
    {first second : String}
    {left right : List Ingredient}
    (same : textIngredients first ++ left = textIngredients second ++ right) :
    first = second ∧ left = right := by
  simp only [textIngredients, List.cons_append, List.nil_append, List.cons.injEq,
    Ingredient.bytes.injEq, true_and] at same
  obtain ⟨bytes, rest⟩ := same
  exact ⟨String.toByteArray_inj.mp (toList_inj bytes), rest⟩

end Bytes

section Elements

/-- What can stand after elements: it does not begin like one more element. -/
def Follows (rest : List Ingredient) : Prop :=
  ∀ size values more, rest ≠ .word size :: .bytes values :: more

theorem follows_nil : Follows [] := by
  intro size values more same
  cases same

/-- A text can stand after elements: it begins with its length and no bytes. -/
theorem follows_text
    (text : String)
    (rest : List Ingredient) :
    Follows (textIngredients text ++ rest) := by
  intro size values more same
  cases same

/-- Past the first element that is cut off every element is. -/
theorem bytesFrom?_eq_none
    {bytes : ByteArray}
    {start size : Nat}
    (cut : ¬ start + size ≤ bytes.size)
    (further : Nat) :
    bytesFrom? bytes (start + further) size = none := by
  rw [bytesFrom?, if_neg (by omega)]

/-- Equal rows of elements hold the same elements, and the same follows them. -/
theorem elements_append_inj
    {left right : ByteArray}
    {size leftStride rightStride : Nat}
    {leftRest rightRest : List Ingredient}
    (leftFollows : Follows leftRest)
    (rightFollows : Follows rightRest)
    {count leftStart rightStart : Nat}
    (same :
      elements left size leftStride leftStart count ++ leftRest =
        elements right size rightStride rightStart count ++ rightRest) :
    (∀ place < count,
      bytesFrom? left (leftStart + place * leftStride) size =
        bytesFrom? right (rightStart + place * rightStride) size) ∧
      leftRest = rightRest := by
  -- Both sides go on or stop together: where only one is cut off, what follows it would have to
  -- begin with an element of the other.
  induction count generalizing leftStart rightStart with
  | zero => exact ⟨by simp, by simpa [elements] using same⟩
  | succ count ih =>
    by_cases leftFits : leftStart + size ≤ left.size <;>
      by_cases rightFits : rightStart + size ≤ right.size <;>
      simp only [elements, leftFits, rightFits, if_true, if_false, List.nil_append,
        List.cons_append, List.cons.injEq, Ingredient.bytes.injEq, true_and] at same
    · obtain ⟨values, later⟩ := same
      obtain ⟨elements, rests⟩ := ih later
      refine ⟨?_, rests⟩
      intro place below
      cases place with
      | zero => simp [bytesFrom?, leftFits, rightFits, values]
      | succ place =>
        have next := elements place (by omega)
        rw [Nat.succ_mul, Nat.succ_mul, Nat.add_comm _ leftStride, Nat.add_comm _ rightStride,
          ← Nat.add_assoc, ← Nat.add_assoc]
        exact next
    · exact absurd same.symm (rightFollows _ _ _)
    · exact absurd same (leftFollows _ _ _)
    · refine ⟨?_, same⟩
      intro place _
      rw [bytesFrom?_eq_none leftFits, bytesFrom?_eq_none rightFits]

end Elements

section Accessors

variable {document : Document} {contents : Array ByteArray}

/-- An accessor of a valid document is valid. -/
theorem Complete.isValidAccessor
    (complete : Complete document contents)
    {index : Nat}
    {accessor : Accessor}
    (found : document.accessors[index]? = some accessor) :
    document.isValidAccessor accessor = true := by
  have valid := complete.valid
  simp only [Document.isValid, Bool.and_eq_true] at valid
  have every : document.accessors.all document.isValidAccessor = true := by tauto
  exact (Array.all_eq_true'.mp every) accessor (Array.mem_of_getElem? found)

/-- The view of an accessor lies in a buffer whose bytes are there. -/
theorem Complete.storage
    (complete : Complete document contents)
    {index view : Nat}
    {accessor : Accessor}
    (found : document.accessors[index]? = some accessor)
    (viewed : accessor.view = some view) :
    ∃ range bytes, document.views[view]? = some range ∧ contents[range.buffer]? = some bytes := by
  have validAccessor := complete.isValidAccessor found
  have valid := complete.valid
  simp only [Document.isValid, Document.isValidAccessor, Bool.and_eq_true, viewed,
    Gltf.leadsInto, Option.all_some, decide_eq_true_eq] at valid validAccessor
  have inside : view < document.views.size := by tauto
  have every : document.views.all document.isValidView = true := by tauto
  have validView := Array.all_eq_true.mp every view inside
  simp only [Document.isValidView, Gltf.leadsInto, Option.all_some, Bool.and_eq_true,
    decide_eq_true_eq] at validView
  have stored : document.views[view].buffer < contents.size := by
    rw [complete.buffers]
    exact validView.1.1
  exact ⟨document.views[view], contents[document.views[view].buffer],
    Array.getElem?_eq_getElem inside, Array.getElem?_eq_getElem stored⟩

/-- An accessor gives its count, its element size and its flag, and then its elements. -/
theorem accessorIngredients_eq
    {index : Nat}
    {accessor : Accessor}
    (found : document.accessors[index]? = some accessor) :
    accessorIngredients document contents index =
      .word accessor.count :: .word accessor.size :: flagIngredient accessor.normalized
        :: accessorElements document contents index accessor := by
  simp [accessorIngredients, found]

/-- An accessor can stand after elements. -/
theorem follows_accessor
    {index : Nat}
    (inside : index < document.accessors.size)
    (rest : List Ingredient) :
    Follows (accessorIngredients document contents index ++ rest) := by
  intro size values more same
  rw [accessorIngredients_eq (Array.getElem?_eq_getElem inside)] at same
  simp at same

theorem flagIngredient_inj
    {first second : Bool}
    (same : flagIngredient first = flagIngredient second) :
    first = second := by
  revert same
  cases first <;> cases second <;> simp [flagIngredient]

/-- What is stored for an element of a view. -/
theorem storedElement?_of_view
    {accessor : Accessor}
    {view : Nat}
    {range : Gltf.View}
    {bytes : ByteArray}
    (viewed : accessor.view = some view)
    (ranged : document.views[view]? = some range)
    (stored : contents[range.buffer]? = some bytes)
    (place : Nat) :
    storedElement? document contents accessor place =
      bytesFrom? bytes
        (range.byteOffset.getD 0 + accessor.byteOffset.getD 0
          + place * range.byteStride.getD accessor.size)
        accessor.size := by
  simp [storedElement?, viewed, storedItem?, ranged, stored]

/-- Accessors that agree on the form and on the bytes of their elements hold the same data. -/
theorem ofAccessor_congr
    {left right : Accessor}
    (counts : left.count = right.count)
    (types : left.componentType = right.componentType)
    (dimensions : left.dimensions = right.dimensions)
    (flags : left.normalized = right.normalized)
    (elements :
      ∀ place < left.count,
        elementBytes? document contents left place =
          elementBytes? document contents right place) :
    Data.ofAccessor document contents left = Data.ofAccessor document contents right := by
  have values :
      (Data.ofAccessor document contents left).values =
        (Data.ofAccessor document contents right).values := by
    simp only [Data.ofAccessor, ← counts, ← types, ← dimensions]
    apply List.map_congr_left
    intro place inside
    rw [elements place (List.mem_range.mp inside)]
  simpa [Data.ofAccessor, types, dimensions, flags] using values

/-- Accessors that are told apart hold the same data where they give the same ingredients. -/
theorem accessorIngredients_append_inj
    (complete : Complete document contents)
    {first second : Nat}
    (firstInside : first < document.accessors.size)
    (secondInside : second < document.accessors.size)
    (told : ToldApart document contents first second)
    {leftRest rightRest : List Ingredient}
    (leftFollows : Follows leftRest)
    (rightFollows : Follows rightRest)
    (same :
      accessorIngredients document contents first ++ leftRest =
        accessorIngredients document contents second ++ rightRest) :
    dataAt document contents first = dataAt document contents second ∧ leftRest = rightRest := by
  have foundFirst := Array.getElem?_eq_getElem firstInside
  have foundSecond := Array.getElem?_eq_getElem secondInside
  generalize document.accessors[first] = left at foundFirst
  generalize document.accessors[second] = right at foundSecond
  rcases told with rfl | apart
  · exact ⟨rfl, List.append_cancel_left same⟩
  · rw [accessorIngredients_eq foundFirst, accessorIngredients_eq foundSecond] at same
    simp only [List.cons_append, List.cons.injEq, Ingredient.word.injEq] at same
    obtain ⟨counts, sizes, flags, streams⟩ := same
    replace flags := flagIngredient_inj flags
    rcases apart left right foundFirst foundSecond counts sizes flags with
      ⟨leftBare, rightBare⟩ | ⟨leftHas, rightHas, types, dimensions, substitutes⟩
    · -- Without a view the ingredient is the place of the accessor itself.
      simp only [accessorElements, leftBare, rightBare, Option.bind_eq_bind, Option.bind_none,
        List.cons_append, List.nil_append, List.cons.injEq, Ingredient.word.injEq] at streams
      obtain ⟨rfl, rests⟩ := streams
      exact ⟨rfl, rests⟩
    · obtain ⟨leftView, leftViewed⟩ := Option.isSome_iff_exists.mp leftHas
      obtain ⟨rightView, rightViewed⟩ := Option.isSome_iff_exists.mp rightHas
      obtain ⟨leftRange, leftBytes, leftRanged, leftStored⟩ :=
        complete.storage foundFirst leftViewed
      obtain ⟨rightRange, rightBytes, rightRanged, rightStored⟩ :=
        complete.storage foundSecond rightViewed
      simp only [accessorElements, leftViewed, rightViewed, leftRanged, rightRanged, leftStored,
        rightStored, Option.bind_eq_bind, Option.bind_some, Option.pure_def, ← counts, ← sizes]
        at streams
      obtain ⟨items, rests⟩ := elements_append_inj leftFollows rightFollows streams
      refine ⟨?_, rests⟩
      rw [dataAt, dataAt, foundFirst, foundSecond, Option.map_some, Option.map_some]
      apply congrArg some
      apply ofAccessor_congr counts types dimensions flags
      intro place below
      rw [elementBytes?, elementBytes?, substitutes place below,
        storedElement?_of_view leftViewed leftRanged leftStored,
        storedElement?_of_view rightViewed rightRanged rightStored, ← sizes, items place below]

end Accessors

section Rows

variable {document : Document} {contents : Array ByteArray}

/-- Accessors with the same data. -/
def SameData (document : Document) (contents : Array ByteArray) (first second : Nat) : Prop :=
  dataAt document contents first = dataAt document contents second

/-- A row of accessors can stand after elements. -/
theorem follows_row
    {row : List Nat}
    (inside : ∀ index ∈ row, index < document.accessors.size) :
    Follows (row.flatMap (accessorIngredients document contents)) := by
  cases row with
  | nil => exact follows_nil
  | cons index row => exact follows_accessor (inside index List.mem_cons_self) _

/-- A row of accessors does not begin like a text. -/
theorem row_ne_text
    {row : List Nat}
    (inside : ∀ index ∈ row, index < document.accessors.size)
    (text : String)
    (more : List Ingredient) :
    row.flatMap (accessorIngredients document contents) ≠ textIngredients text ++ more := by
  cases row with
  | nil => simp [textIngredients]
  | cons index row =>
    have here := Array.getElem?_eq_getElem (inside index List.mem_cons_self)
    simp [accessorIngredients_eq here, textIngredients]

/-- A row that is not empty gives some ingredient. -/
theorem row_ne_nil
    {index : Nat}
    (inside : index < document.accessors.size)
    (row : List Nat) :
    (index :: row).flatMap (accessorIngredients document contents) ≠ [] := by
  simp [accessorIngredients_eq (Array.getElem?_eq_getElem inside)]

/-- Equal rows of accessors hold the same data, accessor by accessor. -/
theorem row_inj
    (complete : Complete document contents)
    {left right : List Nat}
    (leftInside : ∀ index ∈ left, index < document.accessors.size)
    (rightInside : ∀ index ∈ right, index < document.accessors.size)
    (told :
      ∀ place first second : Nat, left[place]? = some first → right[place]? = some second →
        ToldApart document contents first second)
    (same :
      left.flatMap (accessorIngredients document contents) =
        right.flatMap (accessorIngredients document contents)) :
    List.Forall₂ (SameData document contents) left right := by
  induction left generalizing right with
  | nil =>
    cases right with
    | nil => exact .nil
    | cons second right =>
      exact absurd same.symm (row_ne_nil (rightInside second List.mem_cons_self) right)
  | cons first left ih =>
    cases right with
    | nil => exact absurd same (row_ne_nil (leftInside first List.mem_cons_self) left)
    | cons second right =>
      have leftLater := fun index member => leftInside index (List.mem_cons_of_mem first member)
      have rightLater := fun index member => rightInside index (List.mem_cons_of_mem second member)
      obtain ⟨here, later⟩ :=
        accessorIngredients_append_inj complete (leftInside first List.mem_cons_self)
          (rightInside second List.mem_cons_self) (told 0 first second rfl rfl)
          (follows_row leftLater) (follows_row rightLater) same
      exact .cons here (ih leftLater rightLater (fun place => told (place + 1)) later)

/-- Attributes with their accessors. -/
def attributeIngredients
    (document : Document)
    (contents : Array ByteArray)
    (attached : List (String × Nat)) :
    List Ingredient :=
  attached.flatMap fun entry =>
    textIngredients entry.1 ++ accessorIngredients document contents entry.2

@[simp] theorem attributeIngredients_nil : attributeIngredients document contents [] = [] :=
  rfl

/-- The first attribute gives its label and its accessor before the others. -/
@[simp] theorem attributeIngredients_cons
    (entry : String × Nat)
    (row : List (String × Nat)) :
    attributeIngredients document contents (entry :: row) =
      textIngredients entry.1 ++ (accessorIngredients document contents entry.2
        ++ attributeIngredients document contents row) := by
  simp [attributeIngredients]

/-- What can stand after attributes: no text begins it but the one of indices. -/
def EndsAttributes (rest : List Ingredient) : Prop :=
  ∀ text more, rest = textIngredients text ++ more → text = "indices"

/-- Entries of known accessors under labels that mark no indices. -/
structure Attached (document : Document) (row : List (String × Nat)) : Prop where
  inside : ∀ entry ∈ row, entry.2 < document.accessors.size
  named : ∀ entry ∈ row, entry.1 ≠ "indices"

theorem Attached.tail
    {entry : String × Nat}
    {row : List (String × Nat)}
    (attached : Attached document (entry :: row)) :
    Attached document row where
  inside other member := attached.inside other (List.mem_cons_of_mem entry member)
  named other member := attached.named other (List.mem_cons_of_mem entry member)

/-- Attributes can stand after elements if what is behind them can. -/
theorem follows_attributes
    (row : List (String × Nat))
    {rest : List Ingredient}
    (follows : Follows rest) :
    Follows (attributeIngredients document contents row ++ rest) := by
  cases row with
  | nil => exact follows
  | cons entry row =>
    rw [attributeIngredients_cons, List.append_assoc]
    exact follows_text _ _

/-- Entries under one label with the same data. -/
def SameEntry
    (document : Document)
    (contents : Array ByteArray)
    (left right : String × Nat) :
    Prop :=
  left.1 = right.1 ∧ SameData document contents left.2 right.2

/-- Equal attributes have equal labels and the same data, and the same follows them. -/
theorem attributes_append_inj
    (complete : Complete document contents)
    {left right : List (String × Nat)}
    (leftAttached : Attached document left)
    (rightAttached : Attached document right)
    (told :
      ∀ label first second, (label, first) ∈ left → (label, second) ∈ right →
        ToldApart document contents first second)
    {leftRest rightRest : List Ingredient}
    (leftFollows : Follows leftRest)
    (rightFollows : Follows rightRest)
    (leftEnds : EndsAttributes leftRest)
    (rightEnds : EndsAttributes rightRest)
    (same :
      attributeIngredients document contents left ++ leftRest =
        attributeIngredients document contents right ++ rightRest) :
    List.Forall₂ (SameEntry document contents) left right ∧ leftRest = rightRest := by
  -- A side that has no attributes left cannot be followed by a label of the other.
  induction left generalizing right with
  | nil =>
    cases right with
    | nil => exact ⟨.nil, same⟩
    | cons second right =>
      rw [attributeIngredients_nil, attributeIngredients_cons, List.nil_append,
        List.append_assoc] at same
      exact absurd (leftEnds _ _ same) (rightAttached.named second List.mem_cons_self)
  | cons first left ih =>
    cases right with
    | nil =>
      rw [attributeIngredients_nil, attributeIngredients_cons, List.nil_append,
        List.append_assoc] at same
      exact absurd (rightEnds _ _ same.symm) (leftAttached.named first List.mem_cons_self)
    | cons second right =>
      obtain ⟨label, firstIndex⟩ := first
      obtain ⟨secondLabel, secondIndex⟩ := second
      simp only [attributeIngredients_cons, List.append_assoc] at same
      obtain ⟨rfl, streams⟩ := textIngredients_append_inj same
      have here : ToldApart document contents firstIndex secondIndex :=
        told label firstIndex secondIndex List.mem_cons_self List.mem_cons_self
      obtain ⟨equal, later⟩ :=
        accessorIngredients_append_inj complete (leftAttached.inside _ List.mem_cons_self)
          (rightAttached.inside _ List.mem_cons_self) here
          (follows_attributes left leftFollows) (follows_attributes right rightFollows) streams
      have toldLater : ∀ label first second, (label, first) ∈ left → (label, second) ∈ right →
          ToldApart document contents first second := fun label first second inLeft inRight =>
        told label first second (List.mem_cons_of_mem _ inLeft) (List.mem_cons_of_mem _ inRight)
      obtain ⟨entries, rests⟩ := ih leftAttached.tail rightAttached.tail toldLater later
      exact ⟨.cons ⟨rfl, equal⟩ entries, rests⟩

/-- The accessor of indices, if there is one. -/
def indexIngredients
    (document : Document)
    (contents : Array ByteArray) :
    Option Nat → List Ingredient
  | some index => textIngredients "indices" ++ accessorIngredients document contents index
  | none => []

/-- A fingerprint has four parts. -/
theorem primitiveFingerprint_eq (primitive : Primitive) :
    primitiveFingerprint document contents primitive =
      .word (modeCode primitive) ::
        (attributeIngredients document contents primitive.labelled
          ++ (indexIngredients document contents primitive.indices
            ++ (rowOfTargets primitive).flatMap (accessorIngredients document contents))) := by
  have targets :
      (primitive.targets.flatMap fun target =>
          [target.positions, target.normals, target.tangents].flatMap fun index =>
            index.elim [] (accessorIngredients document contents)) =
        (rowOfTargets primitive).flatMap (accessorIngredients document contents) := by
    rw [rowOfTargets, List.flatMap_assoc]
    congr 1
    funext target
    rw [targetAccessors, List.flatMap_assoc]
    congr 1
    funext index
    cases index <;> simp
  rw [primitiveFingerprint, targets]
  cases primitive.indices <;> simp [attributeIngredients, indexIngredients]

end Rows

section Meanings

/-- Different numbers have different digits. -/
private theorem digits_inj
    {first second : Nat}
    (same : Nat.toDigits 10 first = Nat.toDigits 10 second) :
    first = second := by
  have numbers := congrArg (fun digits => Nat.ofDigitChars 10 digits 0) same
  simpa only [Nat.ofDigitChars_toDigits (show 1 < 10 by decide) (show 10 ≤ 10 by decide)]
    using numbers

/-- Different meanings have different texts. -/
theorem label_inj
    {first second : Semantic}
    (same : first.label = second.label) :
    first = second := by
  replace same := congrArg String.toList same
  cases first <;> cases second <;> simp [Semantic.label] at same ⊢
  case colors.colors => exact digits_inj same
  case textureCoordinates.textureCoordinates => exact digits_inj same
  case joints.joints => exact digits_inj same
  case weights.weights => exact digits_inj same
  case custom.custom => exact String.toList_inj.mp same

/-- No attribute is labelled like the indices. -/
theorem label_ne_indices (meaning : Semantic) :
    meaning.label ≠ "indices" := by
  intro same
  replace same := congrArg String.toList same
  cases meaning <;> simp [Semantic.label] at same

/-- The labelled attributes are those with a meaning. -/
theorem mem_labelled
    {primitive : Primitive}
    {label : String}
    {index : Nat} :
    (label, index) ∈ primitive.labelled ↔
      ∃ meaning : Semantic, meaning.label = label ∧ (some meaning, index) ∈ primitive.attributes := by
  rw [Primitive.labelled, List.mem_mergeSort, List.mem_filterMap]
  constructor
  · rintro ⟨⟨meaning, place⟩, attached, labels⟩
    obtain ⟨meaning, rfl, entry⟩ := Option.map_eq_some_iff.mp labels
    cases entry
    exact ⟨meaning, rfl, attached⟩
  · rintro ⟨meaning, rfl, attached⟩
    exact ⟨(some meaning, index), attached, rfl⟩

/-- Different modes have different codes. -/
theorem code_inj
    {first second : Mode}
    (same : first.code = second.code) :
    first = second := by
  revert same
  cases first <;> cases second <;> decide

end Meanings

section Primitives

variable {document : Document} {contents : Array ByteArray}

/-- What a valid primitive refers to is there. -/
structure Grounded (document : Document) (primitive : Primitive) : Prop where
  mode : primitive.mode.isSome
  labelled : Attached document primitive.labelled
  indices : ∀ index, primitive.indices = some index → index < document.accessors.size
  targets : ∀ index ∈ rowOfTargets primitive, index < document.accessors.size

/-- The primitives of a valid document are grounded. -/
theorem Complete.grounded
    (complete : Complete document contents)
    {primitive : Primitive}
    (known : Known document primitive) :
    Grounded document primitive := by
  obtain ⟨mesh, belongs, member⟩ := known
  have valid := complete.valid
  simp only [Document.isValid, Bool.and_eq_true] at valid
  have meshes : document.meshes.all
      (fun mesh => mesh.primitives.all document.isValidPrimitive) = true := by tauto
  have one := List.all_eq_true.mp (Array.all_eq_true'.mp meshes mesh belongs) primitive member
  simp only [Document.isValidPrimitive, Bool.and_eq_true, Gltf.allLeadInto, List.all_eq_true,
    List.mem_map, decide_eq_true_eq, forall_exists_index, and_imp] at one
  obtain ⟨⟨⟨⟨⟨⟨_, attached⟩, indices⟩, _⟩, mode⟩, targets⟩, _⟩ := one
  constructor
  · exact mode
  · constructor
    · rintro ⟨label, index⟩ entry
      obtain ⟨meaning, _, member⟩ := mem_labelled.mp entry
      exact attached index _ member rfl
    · rintro ⟨label, index⟩ entry
      obtain ⟨meaning, rfl, _⟩ := mem_labelled.mp entry
      exact label_ne_indices meaning
  · intro index chosen
    simpa [Gltf.leadsInto, chosen] using indices
  · intro index row
    obtain ⟨target, belongs, slot⟩ := List.mem_flatMap.mp row
    have leads := targets target belongs
    simp only [Gltf.leadsInto, Option.all_eq_true, decide_eq_true_eq] at leads
    simp only [targetAccessors, List.flatMap_cons, List.flatMap_nil, List.append_nil,
      List.mem_append, Option.mem_toList] at slot
    tauto

/-- Equal slots of a target with the same data later on. -/
theorem slot_inj
    {left right : Option Nat}
    (both : left.isSome = right.isSome)
    {leftRow rightRow : List Nat}
    (same : List.Forall₂ (SameData document contents) (left.toList ++ leftRow)
      (right.toList ++ rightRow)) :
    left.bind (dataAt document contents) = right.bind (dataAt document contents) ∧
      List.Forall₂ (SameData document contents) leftRow rightRow := by
  cases left <;> cases right <;> simp_all [SameData]

/-- Rows with the same data that are cut alike give the same shapes. -/
theorem shapes_inj
    {left right : List MorphTarget}
    (meanings : left.map meaningsOf = right.map meaningsOf)
    (same : List.Forall₂ (SameData document contents) (left.flatMap targetAccessors)
      (right.flatMap targetAccessors)) :
    left.map (Shape.ofTarget document contents) =
      right.map (Shape.ofTarget document contents) := by
  induction left generalizing right with
  | nil =>
    cases right with
    | nil => rfl
    | cons second right => cases meanings
  | cons first left ih =>
    cases right with
    | nil => cases meanings
    | cons second right =>
      simp only [List.map_cons, List.cons.injEq, meaningsOf, Prod.mk.injEq] at meanings
      obtain ⟨⟨positions, normals, tangents⟩, meanings⟩ := meanings
      simp only [List.flatMap_cons, targetAccessors, List.flatMap_nil, List.append_nil,
        List.append_assoc] at same
      obtain ⟨positions, same⟩ := slot_inj positions same
      obtain ⟨normals, same⟩ := slot_inj normals same
      obtain ⟨tangents, same⟩ := slot_inj tangents same
      rw [List.map_cons, List.map_cons, ih meanings same]
      simp only [Shape.ofTarget, positions, normals, tangents]

/-- An item of one list has a partner in the other. -/
theorem partner_of_forall₂
    {relation : α → β → Prop}
    {left : List α}
    {right : List β}
    (related : List.Forall₂ relation left right)
    {item : α}
    (member : item ∈ left) :
    ∃ partner ∈ right, relation item partner := by
  induction related with
  | nil => cases member
  | @cons _ partner _ _ here _ ih =>
    rcases List.mem_cons.mp member with rfl | later
    · exact ⟨partner, List.mem_cons_self, here⟩
    · obtain ⟨other, belongs, holds⟩ := ih later
      exact ⟨other, List.mem_cons_of_mem _ belongs, holds⟩

/-- What is attached is attached under its label on the other side too. -/
theorem attaches_of_entries
    {first second : Primitive}
    (same : List.Forall₂ (SameEntry document contents) first.labelled second.labelled)
    {meaning : Semantic}
    {data : Data}
    (attached : Attaches document contents first meaning data) :
    Attaches document contents second meaning data := by
  obtain ⟨index, member, holds⟩ := attached
  have entry : (meaning.label, index) ∈ first.labelled := mem_labelled.mpr ⟨meaning, rfl, member⟩
  obtain ⟨⟨label, partner⟩, partnered, labels, equal⟩ := partner_of_forall₂ same entry
  obtain ⟨other, rfl, matching⟩ := mem_labelled.mp partnered
  obtain rfl := label_inj labels
  exact ⟨partner, matching, equal.symm.trans holds⟩

/-- Indices and targets can stand after elements. -/
theorem follows_indices
    {primitive : Primitive}
    (grounded : Grounded document primitive) :
    Follows (indexIngredients document contents primitive.indices
      ++ (rowOfTargets primitive).flatMap (accessorIngredients document contents)) := by
  cases primitive.indices with
  | some index => rw [indexIngredients, List.append_assoc]; exact follows_text _ _
  | none => exact follows_row grounded.targets

/-- Indices and targets can stand after attributes. -/
theorem endsAttributes_indices
    {primitive : Primitive}
    (grounded : Grounded document primitive) :
    EndsAttributes (indexIngredients document contents primitive.indices
      ++ (rowOfTargets primitive).flatMap (accessorIngredients document contents)) := by
  intro text more same
  cases indexed : primitive.indices with
  | some index =>
    rw [indexed, indexIngredients, List.append_assoc] at same
    exact (textIngredients_append_inj same).1.symm
  | none =>
    rw [indexed] at same
    exact absurd same (row_ne_text grounded.targets text more)

/-- Equal indices and targets have the same data. -/
theorem indices_append_inj
    (complete : Complete document contents)
    {first second : Primitive}
    (firstGrounded : Grounded document first)
    (secondGrounded : Grounded document second)
    (comparable : Comparable document contents first second)
    (same :
      indexIngredients document contents first.indices
          ++ (rowOfTargets first).flatMap (accessorIngredients document contents) =
        indexIngredients document contents second.indices
          ++ (rowOfTargets second).flatMap (accessorIngredients document contents)) :
    first.indices.bind (dataAt document contents) =
        second.indices.bind (dataAt document contents) ∧
      (rowOfTargets first).flatMap (accessorIngredients document contents) =
        (rowOfTargets second).flatMap (accessorIngredients document contents) := by
  cases firstIndexed : first.indices with
  | none =>
    cases secondIndexed : second.indices with
    | none => simpa [firstIndexed, secondIndexed, indexIngredients] using same
    | some right =>
      rw [firstIndexed, secondIndexed, indexIngredients, indexIngredients, List.nil_append,
        List.append_assoc] at same
      exact absurd same (row_ne_text firstGrounded.targets _ _)
  | some left =>
    cases secondIndexed : second.indices with
    | none =>
      rw [firstIndexed, secondIndexed, indexIngredients, indexIngredients, List.nil_append,
        List.append_assoc] at same
      exact absurd same.symm (row_ne_text secondGrounded.targets _ _)
    | some right =>
      simp only [firstIndexed, secondIndexed, indexIngredients, List.append_assoc] at same
      obtain ⟨_, streams⟩ := textIngredients_append_inj same
      exact accessorIngredients_append_inj complete (firstGrounded.indices left firstIndexed)
        (secondGrounded.indices right secondIndexed)
        (comparable.indices left right firstIndexed secondIndexed)
        (follows_row firstGrounded.targets) (follows_row secondGrounded.targets) streams

/-- Attributes of comparable primitives under one label are told apart by bytes. -/
theorem Comparable.labelled
    {first second : Primitive}
    (comparable : Comparable document contents first second)
    (label : String)
    (left right : Nat)
    (inFirst : (label, left) ∈ first.labelled)
    (inSecond : (label, right) ∈ second.labelled) :
    ToldApart document contents left right := by
  obtain ⟨meaning, rfl, leftMember⟩ := mem_labelled.mp inFirst
  obtain ⟨other, labels, rightMember⟩ := mem_labelled.mp inSecond
  obtain rfl := label_inj labels
  exact comparable.attributes other left right leftMember rightMember

/-- Comparable primitives with one fingerprint draw the same. -/
theorem sameDrawing_of_fingerprint
    (complete : Complete document contents)
    {first second : Primitive}
    (firstGrounded : Grounded document first)
    (secondGrounded : Grounded document second)
    (comparable : Comparable document contents first second)
    (same :
      primitiveFingerprint document contents first =
        primitiveFingerprint document contents second) :
    SameDrawing document contents first second := by
  rw [primitiveFingerprint_eq, primitiveFingerprint_eq] at same
  simp only [List.cons.injEq, Ingredient.word.injEq] at same
  obtain ⟨codes, streams⟩ := same
  obtain ⟨entries, streams⟩ :=
    attributes_append_inj complete firstGrounded.labelled secondGrounded.labelled
      comparable.labelled (follows_indices firstGrounded) (follows_indices secondGrounded)
      (endsAttributes_indices firstGrounded) (endsAttributes_indices secondGrounded) streams
  obtain ⟨indices, rows⟩ :=
    indices_append_inj complete firstGrounded secondGrounded comparable streams
  have data :=
    row_inj complete firstGrounded.targets secondGrounded.targets comparable.targets rows
  constructor
  · obtain ⟨left, leftMode⟩ := Option.isSome_iff_exists.mp firstGrounded.mode
    obtain ⟨right, rightMode⟩ := Option.isSome_iff_exists.mp secondGrounded.mode
    rw [modeCode, modeCode, leftMode, rightMode] at codes
    have modes : left = right := code_inj codes
    rw [leftMode, rightMode, modes]
  · exact indices
  · intro meaning data
    refine ⟨attaches_of_entries entries, attaches_of_entries ?_⟩
    refine entries.flip.imp ?_
    rintro left right ⟨labels, equal⟩
    exact ⟨labels.symm, equal.symm⟩
  · exact shapes_inj (comparable.shapes data.length_eq) data

/-- Primitives with one key and the same targets have one fingerprint. -/
theorem primitiveFingerprint_of_key
    {first second : Primitive}
    (keys : keyOf first = keyOf second)
    (targets : first.targets = second.targets) :
    primitiveFingerprint document contents first =
      primitiveFingerprint document contents second := by
  simp only [keyOf, GeometryKey.mk.injEq] at keys
  obtain ⟨indices, labelled, codes⟩ := keys
  rw [primitiveFingerprint_eq, primitiveFingerprint_eq, indices, labelled, codes, rowOfTargets,
    rowOfTargets, targets]

end Primitives

end SceneMarkup.Loading
