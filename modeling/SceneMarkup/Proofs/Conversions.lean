import SceneMarkup.Proofs.Arithmetic

namespace SceneMarkup.Decimal

open Float.Model UnpackedFloat

/-!
# Whole numbers, decimal literals and doubles

A double is cut off to a whole number, and a whole number or a decimal literal is
rounded to a double.  Constants are read off their significands.
-/

section Constants

/-- The value is the fraction, in whole numbers. -/
def IsFraction (numerator denominator : ℕ) : UnpackedFloat → Prop
  | .finite .positive m place _ =>
      m * 2 ^ place.toNat * denominator = numerator * 2 ^ (-place).toNat
  | _ => False

instance (numerator denominator : ℕ) (u : UnpackedFloat) :
    Decidable (IsFraction numerator denominator u) :=
  match u with
  | .finite .positive m place _ =>
      inferInstanceAs (Decidable (m * 2 ^ place.toNat * denominator =
        numerator * 2 ^ (-place).toNat))
  | .finite .negative _ _ _ => isFalse id
  | .zero _ => isFalse id
  | .infinity _ => isFalse id
  | .notANumber => isFalse id

variable {x : Float}

/-- A power of two is what its two halves, one of which is one, say. -/
theorem two_zpow_eq_div
    (place : ℤ) :
    (2 : ℝ) ^ place = 2 ^ place.toNat / 2 ^ (-place).toNat := by
  rcases le_total 0 place with up | down
  · have none : (-place).toNat = 0 := by omega
    rw [none, pow_zero, div_one, ← zpow_natCast, Int.toNat_of_nonneg up]
  · have none : place.toNat = 0 := by omega
    rw [none, pow_zero, one_div, ← zpow_natCast, Int.toNat_of_nonneg (by omega), zpow_neg, inv_inv]

/-- A constant that is a fraction has the value of the fraction. -/
theorem real_of_isFraction
    {numerator denominator : ℕ}
    (some : 0 < denominator)
    (fraction : IsFraction numerator denominator (unpacked x)) :
    x.isFinite = true ∧ real x = numerator / denominator := by
  have known : x.isFinite = (unpacked x).isFinite := rfl
  rw [known, real]
  generalize unpacked x = u at fraction
  cases u with
  | finite sign m place positive =>
      cases sign with
      | negative => exact fraction.elim
      | positive =>
          have natural : m * 2 ^ place.toNat * denominator =
            numerator * 2 ^ (-place).toNat := fraction
          have whole : (m : ℝ) * 2 ^ place.toNat * denominator =
            numerator * 2 ^ (-place).toNat := by exact_mod_cast natural
          have below : (0 : ℝ) < denominator := Nat.cast_pos.mpr some
          refine ⟨rfl, ?_⟩
          show (m : ℝ) * 2 ^ place = _
          rw [two_zpow_eq_div, eq_div_iff below.ne']
          field_simp
          linarith
  | _ => exact fraction.elim

end Constants

section Integers

variable {x : Float}

/-- Shifting a significand divides it by a power of two. -/
theorem mantissa_shiftRight
    (significand : ExtendedMantissa)
    (count : ℕ) :
    (significand >>> count).mantissa = significand.mantissa / 2 ^ count := by
  induction count with
  | zero => exact (Nat.div_one _).symm
  | succ count ih =>
      show (significand >>> count).mantissa / 2 = _
      rw [ih, Nat.div_div_eq_div_mul, pow_succ]

/-- Cutting to an integer gives the whole part. -/
theorem roundToInt_positive
    (m : ℕ)
    (place : ℤ) :
    roundToInt .positive m place = (⌊(m : ℝ) * 2 ^ place⌋₊ : ℕ) := by
  have shifted : roundToInt .positive m place =
      ((ExtendedMantissa.ofMantissaAndAccuracy (m <<< (place - 0).toNat) .exact
        >>> (0 - (place - ((place - 0).toNat : ℤ))).toNat).mantissa : ℤ) := rfl
  rw [shifted, mantissa_shiftRight]
  have amount : (0 - (place - ((place - 0).toNat : ℤ))).toNat = (-place).toNat := by omega
  have value : (m : ℝ) * 2 ^ place =
      ((m * 2 ^ place.toNat : ℕ) : ℝ) / ((2 ^ (-place).toNat : ℕ) : ℝ) := by
    rw [two_zpow_eq_div]
    push_cast
    ring
  rw [amount, sub_zero, Nat.shiftLeft_eq, value, Nat.floor_div_eq_div]
  rfl

/-- A double that is not negative and fits is cut off to its whole part. -/
theorem toNat_toUInt64
    (finite : x.isFinite = true)
    (nonneg : 0 ≤ real x)
    (fits : real x < 2 ^ 64) :
    x.toUInt64.toNat = ⌊real x⌋₊ := by
  have whole : x.toUInt64 = (unpacked x).toUInt64 := rfl
  have known : (unpacked x).isFinite = true := finite
  have cut : ((unpacked x).toInt 0 (UInt64.size - 1)).toNat = ⌊real x⌋₊ := by
    rw [real] at nonneg ⊢
    cases read : unpacked x with
    | notANumber => simp [read, UnpackedFloat.isFinite] at known
    | infinity => simp [read, UnpackedFloat.isFinite] at known
    | zero sign =>
        show (0 : ℤ).toNat = ⌊(0 : ℝ)⌋₊
        rw [Nat.floor_zero]
        rfl
    | finite sign m place positive =>
        cases sign with
        | negative =>
            rw [read] at nonneg
            have above : (0 : ℝ) < m * 2 ^ place :=
              mul_pos (Nat.cast_pos.mpr positive) (two_zpow_pos _)
            exact absurd nonneg (not_le.mpr (neg_lt_zero.mpr above))
        | positive =>
            show (roundToInt .positive m place).toNat = ⌊(m : ℝ) * 2 ^ place⌋₊
            rw [roundToInt_positive]
            rfl
  have small : ⌊real x⌋₊ < UInt64.size := by
    rw [Nat.floor_lt nonneg]
    exact_mod_cast fits
  rw [whole, UnpackedFloat.toUInt64, cut, UInt64.ofNatClamp, dif_pos small]
  exact UInt64.toNat_ofNatLT

/-- A whole number is rounded to a double. -/
theorem toFloat_roundsTo
    (n : UInt64) :
    RoundsTo n.toNat n.toFloat := by
  have converted : n.toFloat =
      packed (UnpackedFloat.normalize Format.binary64 (n.toNat : ℤ) 0 .positive) := rfl
  have rounds := roundsTo_normalize (n.toNat : ℤ) 0 .positive
  rwa [zpow_zero, mul_one, Int.cast_natCast, ← converted] at rounds

/-- A whole number of at most fifty-three bits is kept. -/
theorem real_toFloat
    {n : UInt64}
    (short : n.toNat < 2 ^ 53) :
    n.toFloat.isFinite = true ∧ real n.toFloat = n.toNat :=
  (toFloat_roundsTo n).natCast short

end Integers

section Literals

/-- The tabled powers of ten are exact. -/
theorem isFraction_powerOfTen :
    ∀ place : Fin Float.exactlyRepresentablePowersOfTen.size,
      IsFraction (10 ^ place.val) 1 (unpacked Float.exactlyRepresentablePowersOfTen[place]) := by
  decide +kernel

/-- The powers of ten in the table are exact. -/
theorem real_powerOfTen
    {places : ℕ}
    (listed : places < Float.exactlyRepresentablePowersOfTen.size) :
    Float.exactlyRepresentablePowersOfTen[places].isFinite = true ∧
      real Float.exactlyRepresentablePowersOfTen[places] = 10 ^ places := by
  obtain ⟨finite, value⟩ := real_of_isFraction one_pos (isFraction_powerOfTen ⟨places, listed⟩)
  refine ⟨finite, value.trans ?_⟩
  push_cast
  rw [div_one]

/-- A decimal literal is the double nearest to it. -/
theorem roundsTo_ofScientific
    (digits : ℕ)
    {places : ℕ}
    (within : places ≤ 2048) :
    RoundsTo (digits / 10 ^ places)
      (packed (UnpackedFloat.ofScientific Format.binary64 digits (Int.negOfNat places))) := by
  rw [Int.negOfNat_eq, Int.ofNat_eq_natCast]
  have large : ¬ -(places : ℤ) > 2 ^ Format.binary64.exponentBits := by
    show ¬ -(places : ℤ) > 2 ^ 11
    omega
  have small :
      ¬ -(places : ℤ) < -((2 ^ Format.binary64.exponentBits : ℤ) + (digits.log2 : ℤ)) := by
    show ¬ -(places : ℤ) < -((2 : ℤ) ^ 11 + (digits.log2 : ℤ))
    omega
  unfold UnpackedFloat.ofScientific
  rcases Nat.eq_zero_or_pos digits with rfl | some
  · rw [dif_pos rfl, Nat.cast_zero, zero_div]
    exact roundsTo_zero _
  rw [dif_neg some.ne', if_neg large, if_neg small]
  rcases Nat.eq_zero_or_pos places with rfl | fractional
  · -- A whole number is given bits behind the point before it is rounded.
    rw [if_pos (by norm_num), pow_zero, div_one]
    have value : (digits : ℝ) = ((digits <<< 53 * 1 : ℕ) : ℝ) * 2 ^ (-53 : ℤ) := by
      rw [mul_one, Nat.shiftLeft_eq]
      push_cast
      norm_num
      ring
    have fine : (-53 : ℤ) ≤
        Format.binary64.targetExponent (totalExponent (digits <<< 53 * 1) (-53)) := by
      rw [targetExponent_eq, mul_one, log2_shiftLeft some.ne']
      push_cast
      omega
    have stands := @stands_exact .positive _ _ fine
    rw [← value] at stands
    exact @roundsTo_packed .positive _ _ (Nat.cast_nonneg digits) stands
  · have negative : ¬ 0 ≤ -(places : ℤ) := by omega
    have power : (-(-(places : ℤ))).toNat = places := by omega
    have tens : 0 < 10 ^ places := by positivity
    have rounds := @roundsTo_div .positive .positive _ _ 0 0 some tens
    simp only [signed, zpow_zero, mul_one, Nat.cast_pow, Nat.cast_ofNat] at rounds
    rw [if_neg negative]
    simp only [power]
    exact rounds

/-- The digits of a literal, read as a whole number, and its decimal places give a double. -/
theorem ofScientific_roundsTo
    (digits : ℕ)
    {places : ℕ}
    (within : places ≤ 2048) :
    RoundsTo (digits / 10 ^ places) (Float.ofScientific digits true places) := by
  unfold Float.ofScientific
  split
  next short =>
    have kept : digits.toUInt64.toNat = digits := by
      have fits : digits < 2 ^ 64 := short.1.trans (by norm_num)
      exact (UInt64.toNat_ofNat').trans (Nat.mod_eq_of_lt fits)
    have listed : places < Float.exactlyRepresentablePowersOfTen.size := by
      have size : Float.exactlyRepresentablePowersOfTen.size = 23 := rfl
      omega
    obtain ⟨finite, value⟩ := real_toFloat (n := digits.toUInt64) (by rw [kept]; exact short.1)
    obtain ⟨finite', value'⟩ := real_powerOfTen listed
    have rounds := div_roundsTo finite finite' (by rw [value']; positivity)
    rw [value, value', kept] at rounds
    exact rounds
  next => exact roundsTo_ofScientific digits within

end Literals

end SceneMarkup.Decimal
