import Mathlib
import SceneMarkup.Decimal.Rounding
import SceneMarkup.Scene.Vector

namespace SceneMarkup.Decimal

open Float.Model

/-!
# Zeros and rounding

What the numbers of a transform are compared with is zero and one.  Doubles stand
for signed zeros, finite values, infinities or none of these; comparisons, products
with special values and negation follow from what they stand for.
-/

/-- What a double stands for. -/
abbrev unpacked (x : Float) : UnpackedFloat :=
  x.toModel.unpack

/-- The double that stands for a value. -/
abbrev packed (value : UnpackedFloat) : Float :=
  .ofModel (.pack value)

section Comparison

/-- Doubles are compared as they are unpacked. -/
theorem beq_eq
    (x y : Float) :
    Float.beq x y = (unpacked x).beq (unpacked y) :=
  rfl

/-- Equal doubles are the same but for the sign of zero. -/
theorem same_of_beq
    {u v : UnpackedFloat}
    (equal : u.beq v = true) :
    u = v ∨ ∃ first second, u = .zero first ∧ v = .zero second := by
  cases u with
  | notANumber => cases equal
  | infinity s =>
      cases v with
      | notANumber => cases s <;> cases equal
      | infinity t => cases s <;> cases t <;> first | exact .inl rfl | cases equal
      | zero t => cases s <;> cases equal
      | finite t => cases s <;> cases equal
  | zero s =>
      cases v with
      | notANumber => cases equal
      | infinity t => cases t <;> cases equal
      | zero t => exact .inr ⟨s, t, rfl, rfl⟩
      | finite t => cases t <;> cases equal
  | finite s mantissa exponent =>
      cases v with
      | notANumber => cases s <;> cases equal
      | infinity t => cases s <;> cases t <;> cases equal
      | zero t => cases s <;> cases equal
      | finite t otherMantissa otherExponent =>
          cases s <;> cases t <;>
            simp [UnpackedFloat.beq, UnpackedFloat.compare, Ordering.then_eq_eq] at equal ⊢
          all_goals simp [equal]

/-- Only the two zeros equal zero. -/
theorem beq_zero_iff
    {x : Float} :
    Float.beq x 0.0 = true ↔ ∃ sign, unpacked x = .zero sign := by
  have read : Float.beq x 0.0 = (unpacked x).beq (.zero .positive) := rfl
  rw [read]
  cases unpacked x with
  | notANumber => simp [UnpackedFloat.beq, UnpackedFloat.compare]
  | infinity sign => cases sign <;> simp [UnpackedFloat.beq, UnpackedFloat.compare]
  | zero sign => simp [UnpackedFloat.beq, UnpackedFloat.compare]
  | finite sign => cases sign <;> simp [UnpackedFloat.beq, UnpackedFloat.compare]

/-- Doubles that equal a third one as numbers equal each other. -/
theorem beq_of_common
    {x y z : Float}
    (first : Float.beq x y = true)
    (second : Float.beq x z = true) :
    Float.beq y z = true := by
  rw [beq_eq] at first second ⊢
  rcases same_of_beq first with same | ⟨s, t, atX, atY⟩
  · rwa [same] at second
  · rw [atY]
    rcases same_of_beq second with same | ⟨_, u, _, atZ⟩
    · rw [← same, atX]
      rfl
    · rw [atZ]
      rfl

end Comparison

section SpecialValues

theorem mul_eq
    (x y : Float) :
    x * y = packed ((unpacked x).mul Format.binary64 (unpacked y)) :=
  rfl

theorem div_eq
    (x y : Float) :
    x / y = packed ((unpacked x).div Format.binary64 (unpacked y)) :=
  rfl

/-- An infinity is unpacked as it was packed. -/
theorem unpacked_packed_infinity
    (sign : UnpackedFloat.Sign) :
    unpacked (packed (.infinity sign)) = .infinity sign := by
  cases sign <;> rfl

/-- Zero rounds to zero without a sign. -/
theorem roundHalfAway_zero
    (sign : UnpackedFloat.Sign) :
    roundHalfAway (packed (.zero sign)) = 0.0 := by
  cases sign <;> decide

/-- An infinity is its own rounding. -/
theorem roundHalfAway_infinity
    (sign : UnpackedFloat.Sign) :
    roundHalfAway (packed (.infinity sign)) = packed (.infinity sign) := by
  cases sign <;> decide

/-- What is no number is rounded to no number. -/
theorem roundHalfAway_notANumber :
    roundHalfAway (packed .notANumber) = packed .notANumber := by
  decide

/-- A product with an infinity is an infinity or no number. -/
theorem product_infinity
    (format : Format)
    (value : UnpackedFloat)
    (sign : UnpackedFloat.Sign) :
    value.mul format (.infinity sign) = .notANumber ∨
      ∃ other, value.mul format (.infinity sign) = .infinity other := by
  cases value with
  | notANumber => exact .inl rfl
  | infinity other => exact .inr ⟨_, rfl⟩
  | zero other => exact .inl rfl
  | finite other => exact .inr ⟨_, rfl⟩

/-- A product with zero is a zero or no number. -/
theorem product_zero
    (format : Format)
    (value : UnpackedFloat)
    (sign : UnpackedFloat.Sign) :
    value.mul format (.zero sign) = .notANumber ∨
      ∃ other, value.mul format (.zero sign) = .zero other := by
  cases value with
  | notANumber => exact .inl rfl
  | infinity other => exact .inl rfl
  | zero other => exact .inr ⟨_, rfl⟩
  | finite other => exact .inr ⟨_, rfl⟩

end SpecialValues

section Rounding

variable {x : Float} {precision : UInt32}

/-- Where the arithmetic gives no number the rounding equals nothing. -/
theorem not_steady_of_notANumber
    (rounded :
      roundHalfAway (x * scaleFactor precision) / scaleFactor precision = packed .notANumber) :
    Float.beq (roundTo x precision) x = false := by
  rw [roundTo, rounded]
  rfl

/-- What is scaled by infinity or by zero is no number when it is scaled back. -/
theorem rescaled_eq_notANumber
    (degenerate :
      ∀ sign mantissa exponent positive,
        unpacked (scaleFactor precision) ≠ .finite sign mantissa exponent positive) :
    roundHalfAway (x * scaleFactor precision) / scaleFactor precision = packed .notANumber := by
  cases factor : unpacked (scaleFactor precision) with
  | finite sign mantissa exponent positive =>
      exact absurd factor (degenerate sign mantissa exponent positive)
  | notANumber =>
      rw [div_eq, factor]
      cases unpacked (roundHalfAway (x * scaleFactor precision)) <;> rfl
  | infinity sign =>
      rw [mul_eq, div_eq, factor]
      rcases product_infinity Format.binary64 (unpacked x) sign with product | ⟨other, product⟩
      · rw [product, roundHalfAway_notANumber]
        rfl
      · rw [product, roundHalfAway_infinity, unpacked_packed_infinity]
        rfl
  | zero sign =>
      rw [mul_eq, div_eq, factor]
      rcases product_zero Format.binary64 (unpacked x) sign with product | ⟨other, product⟩
      · rw [product, roundHalfAway_notANumber]
        rfl
      · rw [product, roundHalfAway_zero]
        rfl

/-- Where some number is left unchanged by rounding, the factor of the rounding is finite and not
zero. -/
theorem finite_scaleFactor
    (steady : Float.beq (roundTo x precision) x = true) :
    ∃ sign mantissa exponent positive,
      unpacked (scaleFactor precision) = .finite sign mantissa exponent positive := by
  by_contra degenerate
  push Not at degenerate
  rw [not_steady_of_notANumber (rescaled_eq_notANumber degenerate)] at steady
  cases steady

/-- Where some number is left unchanged by rounding, zeros are. -/
theorem roundTo_zero
    (steady : Float.beq (roundTo x precision) x = true)
    {zero : Float}
    (isZero : Float.beq zero 0.0 = true) :
    Float.beq (roundTo zero precision) 0.0 = true := by
  obtain ⟨sign, _, _, _, factor⟩ := finite_scaleFactor steady
  obtain ⟨other, read⟩ := beq_zero_iff.mp isZero
  have product : zero * scaleFactor precision = packed (.zero (other * sign)) := by
    rw [mul_eq, read, factor]
    rfl
  have quotient : (0.0 : Float) / scaleFactor precision = packed (.zero (.positive / sign)) := by
    rw [div_eq, factor]
    rfl
  rw [roundTo, product, roundHalfAway_zero, quotient]
  cases sign <;> rfl

end Rounding

/-- Vectors at rest have no length. -/
theorem length_of_agrees_zero
    {v : Scene.Vector}
    (rest : v.agrees .zero = true) :
    v.length = 0.0 := by
  simp only [Scene.Vector.agrees, Scene.Vector.zero, Bool.and_eq_true] at rest
  have square :
      ∀ {x : Float}, Float.beq x 0.0 = true → x * x = 0.0 := by
    intro x isZero
    obtain ⟨sign, read⟩ := beq_zero_iff.mp isZero
    rw [mul_eq, read]
    cases sign <;> rfl
  obtain ⟨⟨restX, restY⟩, restZ⟩ := rest
  rw [Scene.Vector.length, square restX, square restY, square restZ]
  decide

section Fields

open UnpackedFloat

/-- The implicit bit stands for two to the fifty-second. -/
theorem toNat_implicit
    (mantissa : BitVec 52) :
    (1#1 ++ mantissa).toNat = 2 ^ 52 + mantissa.toNat := by
  rw [BitVec.toNat_append, ← Nat.shiftLeft_add_eq_or_of_lt mantissa.isLt]
  simp [Nat.shiftLeft_eq]

/-- The value with the given sign, exponent bits and mantissa bits. -/
def ofFields (sign : Sign) (exponent : BitVec 11) (mantissa : BitVec 52) : UnpackedFloat :=
  let scale : Int := (exponent.toNat : Int) - 1075
  if exponent = -1#11 then
    if mantissa = 0#52 then .infinity sign else .notANumber
  else if exponent = 0#11 then
    if positive : mantissa = 0#52 then .zero sign
    else
      .finite sign mantissa.toNat (scale + 1)
        (by simpa [BitVec.toNat_pos, BitVec.pos_iff_ne_zero])
  else .finite sign (1#1 ++ mantissa).toNat scale (by rw [toNat_implicit]; omega)

/-- A double is unpacked field by field. -/
theorem unpack_eq_ofFields
    (bits : BitVec Format.binary64.numBits) :
    UnpackedFloat.unpack Format.binary64 bits =
      ofFields (Sign.ofBitVec (unpackSign bits)) (unpackExponent bits) (unpackMantissa bits) :=
  rfl

/-- The sign is unpacked as it was packed. -/
theorem unpackSign_packComponents
    (sign : Sign)
    (exponent : BitVec 11)
    (mantissa : BitVec 52) :
    Sign.ofBitVec (unpackSign (packComponents Format.binary64 sign exponent mantissa)) = sign := by
  simp only [unpackSign, packComponents, BitVec.extractLsb]
  rw [BitVec.extractLsb'_append_eq_of_le (by decide),
    BitVec.extractLsb'_append_eq_of_le (by decide)]
  cases sign <;> rfl

/-- Packed fields are unpacked as they were. -/
theorem unpack_packComponents
    (sign : Sign)
    (exponent : BitVec 11)
    (mantissa : BitVec 52) :
    UnpackedFloat.unpack Format.binary64 (packComponents Format.binary64 sign exponent mantissa) =
      ofFields sign exponent mantissa := by
  rw [unpack_eq_ofFields, unpackSign_packComponents, unpackExponent_packComponents,
    unpackMantissa_packComponents]

/-- Negation turns the sign and leaves the other fields. -/
theorem neg_ofFields
    (sign : Sign)
    (exponent : BitVec 11)
    (mantissa : BitVec 52) :
    (ofFields sign exponent mantissa).neg = ofFields (-sign) exponent mantissa := by
  unfold ofFields
  simp only
  split
  · split <;> rfl
  · split
    · split <;> rfl
    · rfl

/-- A subnormal double is packed with the lowest exponent. -/
theorem pack_ofFields_subnormal
    (sign : Sign)
    {mantissa : BitVec 52}
    (some : mantissa ≠ 0#52) :
    UnpackedFloat.pack Format.binary64 (ofFields sign 0#11 mantissa) =
      packComponents Format.binary64 sign 0#11 mantissa := by
  have short : mantissa.toNat.log2 < 52 :=
    (Nat.log2_lt (by simpa [BitVec.toNat_eq] using some)).mpr mantissa.isLt
  have value : ofFields sign 0#11 mantissa =
      .finite sign mantissa.toNat (-1074)
        (by simpa [BitVec.toNat_pos, BitVec.pos_iff_ne_zero]) := by
    rw [ofFields, if_neg (by decide), if_pos rfl, dif_neg some]
    rfl
  rw [value, UnpackedFloat.pack]
  simp only
  rw [if_neg (by decide), if_neg (by simp [Format.mantissaBits]; omega)]
  simp

/-- A normal double is packed into the fields that it came from. -/
theorem pack_ofFields_normal
    (sign : Sign)
    {exponent : BitVec 11}
    (mantissa : BitVec 52)
    (top : exponent ≠ -1#11)
    (bottom : exponent ≠ 0#11) :
    UnpackedFloat.pack Format.binary64 (ofFields sign exponent mantissa) =
      packComponents Format.binary64 sign exponent mantissa := by
  have low : exponent.toNat ≠ 0 := by simpa [BitVec.toNat_eq] using bottom
  have high : exponent.toNat ≠ 2047 := by simpa [BitVec.toNat_eq] using top
  have full : (1#1 ++ mantissa).toNat.log2 = 52 := by
    rw [toNat_implicit, Nat.log2_eq_iff (by omega)]
    omega
  have biased :
      ((exponent.toNat : Int) - 1075 + Format.binary64.exponentBias
        + Format.binary64.mantissaBitsWithoutImplicit).toNat = exponent.toNat := by
    show ((exponent.toNat : Int) - 1075 + (1023 : Nat) + (52 : Nat)).toNat = exponent.toNat
    omega
  rw [ofFields, if_neg top, if_neg bottom, UnpackedFloat.pack]
  simp only [full, biased]
  rw [if_neg (by simp; omega), if_pos (by rfl), toNat_implicit]
  congr
  · simp
  · simp [BitVec.ofNat_add]

/-- Packing a value that was read off fields and reading it again changes nothing. -/
theorem unpack_pack_ofFields
    (sign : Sign)
    (exponent : BitVec 11)
    (mantissa : BitVec 52) :
    UnpackedFloat.unpack Format.binary64 (UnpackedFloat.pack Format.binary64
      (ofFields sign exponent mantissa)) = ofFields sign exponent mantissa := by
  by_cases top : exponent = -1#11
  · by_cases none : mantissa = 0#52
    · rw [top, none]
      exact unpack_packComponents sign _ _
    · have number : ofFields sign exponent mantissa = .notANumber := by
        rw [ofFields, if_pos top, if_neg none]
      rw [number]
      rfl
  · by_cases bottom : exponent = 0#11
    · by_cases none : mantissa = 0#52
      · rw [bottom, none]
        exact unpack_packComponents sign _ _
      · rw [bottom, pack_ofFields_subnormal sign none, unpack_packComponents]
    · rw [pack_ofFields_normal sign mantissa top bottom, unpack_packComponents]

/-- A negative double stands for the negative value. -/
theorem unpacked_neg
    (x : Float) :
    unpacked (-x) = (unpacked x).neg := by
  let bits : BitVec Format.binary64.numBits := x.toModel.toBits.toBitVec
  have read : unpacked x =
      ofFields (Sign.ofBitVec (unpackSign bits))
        (unpackExponent bits) (unpackMantissa bits) :=
    unpack_eq_ofFields _
  have negated : unpacked (-x) =
      UnpackedFloat.unpack Format.binary64
        (UnpackedFloat.pack Format.binary64 (unpacked x).neg) := rfl
  rw [negated, read, neg_ofFields, unpack_pack_ofFields]

end Fields

end SceneMarkup.Decimal
