import SceneMarkup.Proofs.PrintedNumbers
import SceneMarkup.Scene.Node

namespace SceneMarkup.Decimal

/-!
# Angles that are read back

An angle is counted in steps of `0.00001`, and a spelling with the constant is
chosen by the count.  No count is off by much more than half a step, and the angles
that are spelt lie less than half a step from theirs; so the angle that is read is
less than a step from the one that was written.

The count is held inside the signed 64-bit range, where all but the least one have
a magnitude.  The magnitude of a count is the count of the magnitude, so what is
spelt has the count of the angle that it is spelt as; the angles that are spelt have
different counts, and no number is written like one of them.
-/

section Steps

variable {x y : Float}

theorem isNaN_eq_false
    (finite : x.isFinite = true) :
    x.isNaN = false := by
  have known : (unpacked x).isFinite = true := finite
  show (unpacked x).isNaN = false
  cases read : unpacked x with
  | notANumber =>
      rw [read] at known
      cases known
  | infinity => rfl
  | zero => rfl
  | finite => rfl

theorem real_cutLimit :
    (9223372036854775808.0 : Float).isFinite = true ∧ real 9223372036854775808.0 = 2 ^ 63 := by
  have fraction := @real_of_isFraction 9223372036854775808.0 (2 ^ 63) 1 one_pos (by decide)
  exact ⟨fraction.1, fraction.2.trans (by norm_num)⟩

/-- A whole number held inside the signed 64-bit range. -/
def clamped (n : ℤ) : ℤ :=
  max (-9223372036854775808) (min n 9223372036854775807)

/-- A whole double is held inside the signed 64-bit range. -/
theorem saturated_eq_clamped
    {n : ℤ}
    (finite : x.isFinite = true)
    (whole : real x = n) :
    saturated x = clamped n := by
  obtain ⟨finiteHigh, high⟩ := real_cutLimit
  obtain ⟨finiteLow, low⟩ := isFinite_neg finiteHigh
  have negative := lt_iff_real finite real_zero.1
  have below := le_iff_real finite finiteLow
  have above := le_iff_real finiteHigh finite
  rw [whole, real_zero.2] at negative
  rw [whole, low, high] at below
  rw [whole, high] at above
  have cut : ∀ {z : Float} {k : ℕ}, z.isFinite = true → real z = k → (k : ℝ) < 2 ^ 63 →
      z.toUInt64.toNat = k := by
    intro z k finiteZ same less
    rw [toNat_toUInt64 finiteZ (same ▸ Nat.cast_nonneg k) (by rw [same]; linarith), same,
      Nat.floor_natCast]
  unfold saturated clamped
  rw [isNaN_eq_false finite]
  simp only [Bool.false_eq_true, if_false]
  split_ifs with isNegative isLow isHigh
  · have outside : n ≤ -2 ^ 63 := by exact_mod_cast below.mp isLow
    omega
  · have sign : n < 0 := by exact_mod_cast negative.mp isNegative
    have inside : -2 ^ 63 < n := by exact_mod_cast not_le.mp (mt below.mpr isLow)
    obtain ⟨k, opposite⟩ := Int.eq_ofNat_of_zero_le (a := -n) (by omega)
    obtain ⟨finiteNeg, value⟩ := isFinite_neg finite
    have magnitude : real (-x) = (k : ℝ) := by
      rw [value, whole, ← Int.cast_neg, opposite, Int.cast_natCast]
    have less : (k : ℝ) < 2 ^ 63 := by
      have lessInt : (k : ℤ) < 2 ^ 63 := by omega
      exact_mod_cast lessInt
    rw [cut finiteNeg magnitude less]
    omega
  · have outside : 2 ^ 63 ≤ n := by exact_mod_cast above.mp isHigh
    omega
  · have sign : 0 ≤ n := by exact_mod_cast not_lt.mp (mt negative.mpr isNegative)
    have inside : n < 2 ^ 63 := by exact_mod_cast not_le.mp (mt above.mpr isHigh)
    obtain ⟨k, rfl⟩ := Int.eq_ofNat_of_zero_le sign
    have less : (k : ℝ) < 2 ^ 63 := by exact_mod_cast inside
    rw [cut finite (by rw [whole, Int.cast_natCast]) less]
    omega

/-- A whole double is kept by the cut to sixty-four bits, unless it is too large for them. -/
theorem saturated_of_whole
    {n : ℤ}
    (finite : x.isFinite = true)
    (whole : real x = n) :
    saturated x = n ∨ 2 ^ 62 ≤ |saturated x| := by
  rw [saturated_eq_clamped finite whole, clamped, le_abs]
  omega

theorem real_stepCount :
    (100000.0 : Float).isFinite = true ∧ real 100000.0 = 100000 := by
  have fraction := @real_of_isFraction 100000.0 100000 1 one_pos (by decide)
  exact ⟨fraction.1, fraction.2.trans (by norm_num)⟩

/-- Counting the steps rounds twice, and the first time by very little. -/
theorem abs_angleSteps_sub_le
    (finite : x.isFinite = true)
    (small : |angleSteps x| < 2 ^ 22) :
    |(angleSteps x : ℝ) - real x * 100000| ≤ 1 / 2 + 2 ^ (-31 : ℤ) := by
  have product := mul_roundsTo finite real_stepCount.1
  rw [real_stepCount.2] at product
  generalize real x * 100000 = r at product
  unfold angleSteps at small ⊢
  rcases product with ⟨finiteProduct, value⟩ | ⟨_, infinite⟩
  · obtain ⟨finiteWhole, whole⟩ := real_roundHalfAway finiteProduct
    rw [value] at whole
    rcases saturated_of_whole finiteWhole whole with kept | large
    · rw [kept] at small ⊢
      have near := abs_halfAway_sub_le (nearest r)
      have smallReal : |(halfAway (nearest r) : ℝ)| < 2 ^ 22 := by exact_mod_cast small
      have below : |r| < 2 ^ (-30 + 53 : ℤ) := by
        by_contra large
        have above := nearest_mono (two_zpow_pos _).le (not_lt.mp large)
        rw [nearest_two_zpow (by norm_num), ← abs_nearest] at above
        have apart := abs_sub_abs_le_abs_sub (nearest r) (halfAway (nearest r) : ℝ)
        rw [abs_sub_comm] at apart
        norm_num at above
        linarith
      have error : |nearest r - r| ≤ 2 ^ (-31 : ℤ) := by
        rcases lastPlace_le (by norm_num) below with coarse | zero
        · exact (abs_nearest_sub_le r).trans (zpow_le_zpow_right₀ one_le_two (by omega))
        · rw [zero, nearest_zero, sub_zero, abs_zero]
          exact (two_zpow_pos _).le
      calc |(halfAway (nearest r) : ℝ) - r|
          ≤ |(halfAway (nearest r) : ℝ) - nearest r| + |nearest r - r| := abs_sub_le _ _ _
        _ ≤ 1 / 2 + 2 ^ (-31 : ℤ) := add_le_add near error
    · exact absurd (large.trans_lt small) (by norm_num)
  · -- What has become infinite is cut to the largest count.
    have whole : x * 100000.0 = packed (.infinity (if r < 0 then .negative else .positive)) := by
      rw [← infinite, packed_unpacked]
    rw [whole, roundHalfAway_infinity] at small
    generalize (if r < 0 then Float.Model.UnpackedFloat.Sign.negative else .positive) = sign
      at small
    have large : 2 ^ 22 ≤ |saturated (packed (.infinity sign))| := by
      cases sign <;> decide
    exact absurd small (not_lt.mpr large)

end Steps

section Magnitudes

variable {x : Float}

/-- The count of an angle before it is held inside the signed 64-bit range. -/
noncomputable def wholeSteps (r : ℝ) : ℤ :=
  halfAway (nearest (r * 100000))

theorem wholeSteps_abs
    (r : ℝ) :
    wholeSteps |r| = |wholeSteps r| := by
  have scaled : |r| * 100000 = |r * 100000| := by
    rw [abs_mul, abs_of_pos (by norm_num : (0 : ℝ) < 100000)]
  rw [wholeSteps, wholeSteps, scaled, ← abs_nearest, abs_halfAway, halfAway,
    if_neg (not_lt.mpr (abs_nonneg _))]

/-- A finite angle stays finite when it is scaled, or what it becomes is far outside of the
range. -/
theorem scaled_cases
    (finite : x.isFinite = true) :
    ((x * 100000.0).isFinite = true ∧ real (x * 100000.0) = nearest (real x * 100000)) ∨
      (x * 100000.0 = packed (.infinity .negative) ∧ wholeSteps (real x) < -2 ^ 63) ∨
      (x * 100000.0 = packed (.infinity .positive) ∧ 2 ^ 63 < wholeSteps (real x)) := by
  have product := mul_roundsTo finite real_stepCount.1
  rw [real_stepCount.2] at product
  unfold wholeSteps
  generalize real x * 100000 = r at product
  rcases product with ⟨finiteProduct, value⟩ | ⟨large, infinite⟩
  · exact .inl ⟨finiteProduct, value⟩
  · have near := abs_le.mp (abs_halfAway_sub_le (nearest r))
    have huge : (2 : ℝ) ^ 63 + 1 ≤ |nearest r| := by
      calc (2 : ℝ) ^ 63 + 1 ≤ 2 ^ (64 : ℤ) := by norm_num
        _ ≤ 2 ^ (1024 : ℤ) := zpow_le_zpow_right₀ one_le_two (by norm_num)
        _ ≤ |nearest r| := large
    right
    rw [← packed_unpacked (x * 100000.0), infinite]
    split
    next negative =>
      have above : 0 ≤ -nearest r := by
        rw [← nearest_neg]
        exact nearest_nonneg (by linarith)
      rw [← abs_neg, abs_of_nonneg above] at huge
      have outside : (halfAway (nearest r) : ℝ) < -2 ^ 63 := by linarith [near.2]
      exact .inl ⟨rfl, by exact_mod_cast outside⟩
    next positive =>
      rw [abs_of_nonneg (nearest_nonneg (not_lt.mp positive))] at huge
      have outside : (2 : ℝ) ^ 63 < halfAway (nearest r) := by linarith [near.1]
      exact .inr ⟨rfl, by exact_mod_cast outside⟩

/-- A finite angle has its whole number of steps as its count, held inside the range. -/
theorem angleSteps_eq_clamped
    (finite : x.isFinite = true) :
    angleSteps x = clamped (wholeSteps (real x)) := by
  rcases scaled_cases finite with ⟨finiteProduct, value⟩ | ⟨infinite, low⟩ | ⟨infinite, high⟩
  · obtain ⟨finiteWhole, whole⟩ := real_roundHalfAway finiteProduct
    rw [value] at whole
    exact saturated_eq_clamped finiteWhole whole
  · have cut : saturated (packed (.infinity .negative)) = -2 ^ 63 := by decide
    rw [angleSteps, infinite, roundHalfAway_infinity, cut, clamped]
    omega
  · have cut : saturated (packed (.infinity .positive)) = 2 ^ 63 - 1 := by decide
    rw [angleSteps, infinite, roundHalfAway_infinity, cut, clamped]
    omega

/-- The scaled angle is as low as the least count, or lower, exactly if its count before the cut
is. -/
theorem scaled_le_least_iff
    (finite : x.isFinite = true) :
    x * 100000.0 ≤ -9223372036854775808.0 ↔ wholeSteps (real x) ≤ -2 ^ 63 := by
  obtain ⟨finiteHigh, high⟩ := real_cutLimit
  obtain ⟨finiteLow, low⟩ := isFinite_neg finiteHigh
  rcases scaled_cases finite with ⟨finiteProduct, value⟩ | ⟨infinite, below⟩ | ⟨infinite, above⟩
  · have near := abs_le.mp (abs_halfAway_sub_le (nearest (real x * 100000)))
    rw [← wholeSteps] at near
    rw [le_iff_real finiteProduct finiteLow, value, low, high]
    constructor
    · intro below
      have less : (wholeSteps (real x) : ℝ) < -2 ^ 63 + 1 := by linarith [near.2]
      have lessInt : wholeSteps (real x) < -2 ^ 63 + 1 := by exact_mod_cast less
      omega
    · -- So far from zero doubles are whole, and rounding changes nothing.
      intro below
      have belowReal : (wholeSteps (real x) : ℝ) ≤ -2 ^ 63 := by exact_mod_cast below
      have far : (2 : ℝ) ^ 52 ≤ |real (x * 100000.0)| := by
        rw [value, ← abs_neg]
        exact le_trans (by linarith [near.1]) (le_abs_self _)
      obtain ⟨n, whole⟩ := exists_int_of_large finiteProduct far
      rw [value] at whole
      rw [whole]
      rwa [wholeSteps, whole, halfAway_intCast] at belowReal
  · rw [infinite]
    exact iff_of_true (by decide) below.le
  · rw [infinite]
    exact iff_of_false (by decide) (by omega)

/-- What is not finite is no number or infinite. -/
theorem eq_packed_of_not_finite
    (infinite : x.isFinite = false) :
    x = packed .notANumber ∨ ∃ sign, x = packed (.infinity sign) := by
  have known : (unpacked x).isFinite = false := infinite
  have same := packed_unpacked x
  cases read : unpacked x with
  | notANumber => exact .inl (same.symm.trans (congrArg packed read))
  | infinity sign => exact .inr ⟨sign, same.symm.trans (congrArg packed read)⟩
  | zero sign =>
      rw [read] at known
      cases known
  | finite sign m place positive =>
      rw [read] at known
      cases known

/-- The magnitude of a count is the count of the magnitude; only the least count has none and
wraps round to itself. -/
theorem wrappedMagnitude_angleSteps
    (x : Float) :
    (x * 100000.0 ≤ -9223372036854775808.0 ∧ overflows (angleSteps x) = true ∧
        wrappedMagnitude (angleSteps x) = -9223372036854775808) ∨
      (¬ x * 100000.0 ≤ -9223372036854775808.0 ∧ overflows (angleSteps x) = false ∧
        ∃ steps : Nat, wrappedMagnitude (angleSteps x) = steps ∧ angleSteps x.abs = steps ∧
          (angleSteps x).natAbs = steps) := by
  cases finite : x.isFinite with
  | true =>
      obtain ⟨finiteAbs, absolute⟩ := isFinite_abs finite
      rw [scaled_le_least_iff finite, angleSteps_eq_clamped finite,
        angleSteps_eq_clamped finiteAbs, absolute, wholeSteps_abs, Int.abs_eq_natAbs]
      generalize wholeSteps (real x) = n
      by_cases least : n ≤ -2 ^ 63
      · have lowest : clamped n = -9223372036854775808 := by
          unfold clamped
          omega
        rw [lowest]
        exact .inl ⟨least, by decide, by decide⟩
      · have size : ((clamped n).natAbs : ℤ) = clamped n.natAbs := by
          unfold clamped
          omega
        have fits : fitsWord (clamped n).natAbs = true := by
          rw [size, fitsWord, Bool.and_eq_true, decide_eq_true_eq, decide_eq_true_eq]
          unfold clamped
          omega
        refine .inr ⟨least, ?_, _, wrapped_of_fitsWord fits, size.symm, rfl⟩
        rw [overflows, fits, Bool.not_true]
  | false =>
      rcases eq_packed_of_not_finite finite with rfl | ⟨sign, rfl⟩
      · exact .inr ⟨by decide, by decide, 0, by decide, by decide, by decide⟩
      · cases sign with
        | negative => exact .inl (by decide)
        | positive =>
            exact .inr
              ⟨by decide, by decide, 9223372036854775807, by decide, by decide, by decide⟩

end Magnitudes

end SceneMarkup.Decimal

namespace SceneMarkup.Markup

open Decimal

section Spelling

variable {x : Float} {precision : UInt32}

/-- The angle lies less than half a step from its count, which is small. -/
def isCentral (angle : Float) : Bool :=
  match unpacked angle with
  | .finite .positive m place _ =>
      place ≤ 0 && 0 ≤ angleSteps angle && angleSteps angle < 2 ^ 22 &&
        100 * (100000 * (m : Int) - angleSteps angle * 2 ^ (-place).toNat).natAbs ≤
          47 * 2 ^ (-place).toNat
  | _ => false

theorem real_of_isCentral
    {angle : Float}
    (central : isCentral angle = true) :
    angle.isFinite = true ∧ 0 ≤ angleSteps angle ∧ angleSteps angle < 2 ^ 22 ∧
      |real angle * 100000 - angleSteps angle| ≤ 47 / 100 := by
  have known : angle.isFinite = (unpacked angle).isFinite := rfl
  rw [known, real]
  unfold isCentral at central
  generalize angleSteps angle = n at central
  generalize unpacked angle = u at central
  cases u with
  | finite sign m place positive =>
      cases sign with
      | negative => cases central
      | positive =>
          simp only [Bool.and_eq_true, decide_eq_true_eq] at central
          obtain ⟨⟨⟨fractional, nonneg⟩, small⟩, near⟩ := central
          refine ⟨rfl, nonneg, small, ?_⟩
          obtain ⟨count, rfl⟩ : ∃ count : ℕ, place = -(count : ℤ) := ⟨(-place).toNat, by omega⟩
          rw [neg_neg, Int.toNat_natCast] at near
          have nearReal : 100 * |100000 * (m : ℝ) - n * 2 ^ count| ≤ 47 * 2 ^ count := by
            have cast : ((100 * (100000 * (m : ℤ) - n * 2 ^ count).natAbs : ℕ) : ℝ) ≤
                ((47 * 2 ^ count : ℕ) : ℝ) := by exact_mod_cast near
            rw [Nat.cast_mul, Nat.cast_natAbs] at cast
            push_cast at cast
            exact cast
          have power : (0 : ℝ) < 2 ^ count := by positivity
          show |(m : ℝ) * 2 ^ (-(count : ℤ)) * 100000 - n| ≤ 47 / 100
          have scaled : (m : ℝ) * 2 ^ (-(count : ℤ)) * 100000 - n =
              (100000 * (m : ℝ) - n * 2 ^ count) / 2 ^ count := by
            rw [zpow_neg, zpow_natCast]
            field_simp
          rw [scaled, abs_div, abs_of_pos power, div_le_iff₀ power]
          linarith
  | _ => cases central

/-- Whatever has the count of a central angle is less than a step from it. -/
theorem abs_sub_le_of_isCentral
    {angle : Float}
    (central : isCentral angle = true)
    (finite : x.isFinite = true)
    (same : |angleSteps x| = angleSteps angle) :
    |(|real x| - real angle)| ≤ 1 / 100000 := by
  obtain ⟨_, _, small, near⟩ := real_of_isCentral central
  have error := abs_angleSteps_sub_le finite (same ▸ small)
  have sameReal : |(angleSteps x : ℝ)| = angleSteps angle := by exact_mod_cast same
  have apart := (abs_abs_sub_abs_le (angleSteps x : ℝ) (real x * 100000)).trans error
  rw [sameReal, abs_mul, abs_of_pos (by norm_num : (0 : ℝ) < 100000)] at apart
  have tiny : (2 : ℝ) ^ (-31 : ℤ) ≤ 1 / 100 := by norm_num
  obtain ⟨low, high⟩ := abs_le.mp apart
  obtain ⟨low', high'⟩ := abs_le.mp near
  rw [abs_le]
  constructor <;> linarith

theorem isCentral_thirdOfPi :
    isCentral Scene.thirdOfPi = true := by
  decide

theorem isCentral_radians :
    ∀ angle ∈ SymbolicAngle.all, isCentral angle.radians = true := by
  decide +kernel

/-- Each spelling is read as the angle it stands for, with a sign and without one. -/
theorem readExpression?_symbolic :
    ∀ angle ∈ SymbolicAngle.all,
      readExpression? angle.text.toList = some angle.radians ∧
        readExpression? ("-" ++ angle.text).toList = some (-angle.radians) := by
  decide +kernel

namespace SymbolicAngle

/-- Every angle is told by its count. -/
theorem eq_of_angleSteps_eq :
    ∀ first ∈ all, ∀ second ∈ all,
      angleSteps first.radians = angleSteps second.radians → first = second := by
  decide +kernel

/-- The angles with a spelling are more than nothing. -/
theorem angleSteps_pos :
    ∀ angle ∈ all, 0 < angleSteps angle.radians := by
  decide +kernel

/-- The search finds the angle whose count is the magnitude of the given one. -/
theorem ofFloat?_eq_some_iff
    {x : Float}
    {angle : SymbolicAngle} :
    ofFloat? x = some angle ↔
      angle ∈ all ∧ wrappedMagnitude (angleSteps x) = angleSteps angle.radians := by
  constructor
  · intro found
    have count := List.find?_some found
    exact ⟨List.mem_of_find?_eq_some found, beq_iff_eq.mp count⟩
  · rintro ⟨listed, same⟩
    cases found : ofFloat? x with
    | none =>
        have differ := List.find?_eq_none.mp found angle listed
        exact absurd (beq_iff_eq.mpr same) differ
    | some other =>
        have count := List.find?_some found
        have otherSame := beq_iff_eq.mp count
        rw [eq_of_angleSteps_eq other (List.mem_of_find?_eq_some found) angle listed
          (otherSame.symm.trans same)]

/-- What wraps round is below every count with a spelling, so the count that is found is that of
the magnitude. -/
theorem abs_angleSteps_of_ofFloat?
    {x : Float}
    {angle : SymbolicAngle}
    (found : ofFloat? x = some angle) :
    |angleSteps x| = angleSteps angle.radians := by
  obtain ⟨listed, same⟩ := ofFloat?_eq_some_iff.mp found
  have positive := angleSteps_pos angle listed
  rcases wrappedMagnitude_angleSteps x with ⟨_, _, least⟩ | ⟨_, _, steps, known, _, count⟩
  · omega
  · rw [Int.abs_eq_natAbs, count, ← known, same]

end SymbolicAngle

/-- An angle is read back as what it is rounded to, or less than a step away. -/
theorem exists_read_angleText
    (finite : x.isFinite = true)
    (finiteRounded : (roundTo x precision).isFinite = true) :
    ∃ y, readExpression? (angleText x precision).toList = some y ∧
      (y = roundTo x precision ∨ |real y - real x| ≤ 1 / 100000) := by
  unfold angleText
  cases found : SymbolicAngle.ofFloat? x with
  | none =>
      have read := (readExpression?_numberText x precision).trans (if_pos finiteRounded)
      exact ⟨_, read, .inl rfl⟩
  | some angle =>
      have listed := List.mem_of_find?_eq_some found
      have same := SymbolicAngle.abs_angleSteps_of_ofFloat? found
      have central := isCentral_radians angle listed
      have close := abs_sub_le_of_isCentral central finite same
      obtain ⟨plain, negated⟩ := readExpression?_symbolic angle listed
      obtain ⟨finiteAngle, _⟩ := real_of_isCentral central
      have sign := lt_iff_real finite real_zero.1
      rw [real_zero.2] at sign
      simp only
      split
      next negative =>
        refine ⟨_, negated, .inr ?_⟩
        rw [abs_of_neg (sign.mp negative)] at close
        rw [(isFinite_neg finiteAngle).2]
        have turned : -real angle.radians - real x = -real x - real angle.radians := by ring
        rwa [turned]
      next positive =>
        refine ⟨_, plain, .inr ?_⟩
        rwa [abs_of_nonneg (not_lt.mp (mt sign.mpr positive)), abs_sub_comm] at close

/-- An angle that is left out lies less than a step from the one that stands for it. -/
theorem abs_sub_le_of_angleSteps_eq
    (finite : x.isFinite = true)
    (same : angleSteps x = angleSteps Scene.thirdOfPi) :
    |real Scene.thirdOfPi - real x| ≤ 1 / 100000 := by
  obtain ⟨_, _, small, near⟩ := real_of_isCentral isCentral_thirdOfPi
  have error := abs_angleSteps_sub_le finite (by
    rw [same]
    decide)
  rw [same] at error
  have tiny : (2 : ℝ) ^ (-31 : ℤ) ≤ 1 / 100 := by norm_num
  obtain ⟨low, high⟩ := abs_le.mp error
  obtain ⟨low', high'⟩ := abs_le.mp near
  rw [abs_le]
  constructor <;> linarith

end Spelling

namespace SymbolicAngle

/-- The spelling of an angle with its sign. -/
def signed (negative : Bool) (angle : SymbolicAngle) : String :=
  (if negative then "-" else "") ++ angle.text

/-- Every angle and every sign is told by the spelling. -/
theorem eq_of_signed_eq :
    ∀ first ∈ all, ∀ second ∈ all, ∀ negative other : Bool,
      first.signed negative = second.signed other → negative = other ∧ first = second := by
  decide +kernel

theorem head?_signed :
    ∀ angle ∈ all,
      (angle.signed false).toList.head? = some 'M' ∧
        (angle.signed true).toList.head? = some '-' ∧
        (angle.signed true).toList.tail.head? = some 'M' := by
  decide +kernel

end SymbolicAngle

section Faithfulness

variable {x : Float} {precision : UInt32}

theorem not_isMagnitude_of_head
    {text : List Char}
    {head : Char}
    (starts : text.head? = some head)
    (other : head.isDigit = false) :
    ¬ IsMagnitude text := by
  rintro ⟨whole, behind, rfl, ⟨digits, nonempty, _⟩, _⟩
  cases whole with
  | nil => exact nonempty rfl
  | cons first rest =>
      obtain rfl : first = head := by simpa using starts
      exact Bool.false_ne_true (other.symm.trans (digits first List.mem_cons_self))

/-- No number has the spelling of an angle. -/
theorem text_ne_signed
    (x : Float)
    {angle : SymbolicAngle}
    (listed : angle ∈ SymbolicAngle.all)
    (negative : Bool) :
    plain.text x ≠ angle.signed negative := by
  intro same
  cases finite : x.isFinite with
  | true =>
      have numeral := isNumeral_text_iff.mpr finite
      rw [same] at numeral
      obtain ⟨plainHead, signHead, signedHead⟩ := SymbolicAngle.head?_signed angle listed
      cases negative with
      | false =>
          rcases numeral with magnitude | ⟨magnitude, minus, _⟩
          · exact not_isMagnitude_of_head plainHead (by decide) magnitude
          · rw [minus] at plainHead
            cases plainHead
      | true =>
          rcases numeral with magnitude | ⟨magnitude, minus, isMagnitude⟩
          · exact not_isMagnitude_of_head signHead (by decide) magnitude
          · rw [minus] at signedHead
            exact not_isMagnitude_of_head signedHead (by decide) isMagnitude
  | false =>
      have special : ∀ angle ∈ SymbolicAngle.all, ∀ negative : Bool,
          "NaN" ≠ angle.signed negative ∧ "inf" ≠ angle.signed negative ∧
            "-inf" ≠ angle.signed negative := by
        decide +kernel
      obtain ⟨notNaN, notInf, notNegInf⟩ := special angle listed negative
      rcases eq_packed_of_not_finite finite with rfl | ⟨sign, rfl⟩
      · have text : plain.text (packed .notANumber) = "NaN" := by decide +kernel
        exact notNaN (text.symm.trans same)
      · rcases text_of_infinity (unpacked_packed_infinity sign) with text | text
        · exact notInf (text.symm.trans same)
        · exact notNegInf (text.symm.trans same)

/-- The angle is what the number is to five places, with the sign of the number. -/
structure Names (x : Float) (negative : Bool) (angle : SymbolicAngle) : Prop where
  sign : negative = decide (x < 0.0)
  steps : angleSteps x.abs = angleSteps angle.radians

/-- What an angle is named after lies at most half a step from the count that the two share, but
for the error of one product; the angle itself lies well within half a step from it. -/
theorem Names.near
    {negative : Bool}
    {angle : SymbolicAngle}
    (names : Names x negative angle)
    (listed : angle ∈ SymbolicAngle.all) :
    x.isFinite = true ∧
      |(|real x| * 100000 - angleSteps angle.radians)| ≤ 1 / 2 + 2 ^ (-31 : ℤ) ∧
      |real angle.radians * 100000 - angleSteps angle.radians| ≤ 47 / 100 := by
  have steps := names.steps
  obtain ⟨_, _, small, near⟩ := real_of_isCentral (isCentral_radians angle listed)
  have positive := SymbolicAngle.angleSteps_pos angle listed
  cases finite : x.isFinite with
  | true =>
      obtain ⟨finiteAbs, absolute⟩ := isFinite_abs finite
      have error := abs_angleSteps_sub_le finiteAbs (by
        rw [steps, abs_of_pos positive]
        exact small)
      rw [steps, absolute, abs_sub_comm] at error
      exact ⟨rfl, error, near⟩
  | false =>
      -- What is no finite number has no steps, or as many as there can be.
      rcases eq_packed_of_not_finite finite with rfl | ⟨sign, rfl⟩
      · have none : angleSteps (packed .notANumber).abs = 0 := by decide
        rw [none] at steps
        omega
      · have most : angleSteps (packed (.infinity sign)).abs = 2 ^ 63 - 1 := by
          cases sign <;> decide
        rw [most] at steps
        omega

/-- An angle is written symbolically exactly if its spelling names it. -/
theorem angleText_eq_signed_iff
    {steps : Nat}
    (count : wrappedMagnitude (angleSteps x) = steps)
    (magnitude : angleSteps x.abs = steps)
    {angle : SymbolicAngle}
    (listed : angle ∈ SymbolicAngle.all)
    (negative : Bool) :
    angleText x precision = angle.signed negative ↔ Names x negative angle := by
  have written :
      ∀ found ∈ SymbolicAngle.all, SymbolicAngle.ofFloat? x = some found →
        angleText x precision = found.signed (decide (x < 0.0)) := by
    intro found _ known
    simp only [angleText, known, SymbolicAngle.signed, decide_eq_true_eq]
  constructor
  · intro same
    cases found : SymbolicAngle.ofFloat? x with
    | none =>
        rw [angleText, found] at same
        exact absurd same (text_ne_signed _ listed negative)
    | some other =>
        obtain ⟨otherListed, otherCount⟩ := SymbolicAngle.ofFloat?_eq_some_iff.mp found
        obtain ⟨sign, rfl⟩ := SymbolicAngle.eq_of_signed_eq _ otherListed _ listed _ _
          ((written other otherListed found).symm.trans same)
        exact ⟨sign.symm, by rw [magnitude, ← otherCount, count]⟩
  · rintro ⟨rfl, same⟩
    refine written angle listed (SymbolicAngle.ofFloat?_eq_some_iff.mpr ⟨listed, ?_⟩)
    rw [count, ← magnitude, same]

/-- The text is what has to be written for a number whose magnitude has this count. -/
structure IsAngleText (x : Float) (precision : UInt32) (text : String) (steps : Nat) : Prop where
  magnitude : angleSteps x.abs = steps
  /-- It is a spelling with the constant exactly if that names the number. -/
  symbolic :
    ∀ negative, ∀ angle ∈ SymbolicAngle.all,
      text = angle.signed negative ↔ Names x negative angle
  /-- What is spelt and the number are both rounded to the count, the number but for the error of
  one product. -/
  near :
    ∀ negative, ∀ angle ∈ SymbolicAngle.all, text = angle.signed negative →
      x.isFinite = true ∧ |(|real x| * 100000 - steps)| ≤ 1 / 2 + 2 ^ (-31 : ℤ) ∧
        |real angle.radians * 100000 - steps| ≤ 47 / 100
  otherwise :
    (∀ negative, ∀ angle ∈ SymbolicAngle.all, text ≠ angle.signed negative) →
      text = numberText x precision

/-- What has a magnitude is written faithfully. -/
theorem isAngleText_angleText
    {steps : Nat}
    (count : wrappedMagnitude (angleSteps x) = steps)
    (magnitude : angleSteps x.abs = steps) :
    IsAngleText x precision (angleText x precision) steps where
  magnitude := magnitude
  symbolic := fun negative _ listed => angleText_eq_signed_iff count magnitude listed negative
  near := by
    intro negative angle listed same
    have names := (angleText_eq_signed_iff count magnitude listed negative).mp same
    have near := names.near listed
    have shared : ((angleSteps angle.radians : ℤ) : ℝ) = steps := by
      rw [← names.steps, magnitude, Int.cast_natCast]
    rwa [shared] at near
  otherwise := by
    intro other
    cases found : SymbolicAngle.ofFloat? x with
    | none => rw [angleText, found]
    | some angle =>
        obtain ⟨listed, same⟩ := SymbolicAngle.ofFloat?_eq_some_iff.mp found
        have names : Names x (decide (x < 0.0)) angle := ⟨rfl, by rw [magnitude, ← same, count]⟩
        exact absurd ((angleText_eq_signed_iff count magnitude listed _).mpr names)
          (other _ angle listed)

/-- What wraps round is no angle that is spelt. -/
theorem angleText_of_wrapped
    (least : wrappedMagnitude (angleSteps x) = -9223372036854775808) :
    angleText x precision = numberText x precision := by
  cases found : SymbolicAngle.ofFloat? x with
  | none => rw [angleText, found]
  | some angle =>
      obtain ⟨listed, same⟩ := SymbolicAngle.ofFloat?_eq_some_iff.mp found
      have positive := SymbolicAngle.angleSteps_pos angle listed
      omega

/--
Angles are written faithfully if the magnitude of their count has a place in
sixty-four bits.  It has none exactly for the numbers that become the least count
or less when they are scaled: a run with checked arithmetic stops there, and where
the magnitude wraps round they are written as numbers.  The magnitude of any other
number has a count that is no less than zero.  It is spelt with the constant exactly
if the angle spelt has that count and the sign is that of the number, and it is
written as a number otherwise.
-/
theorem angleText_faithful
    (x : Float)
    (precision : UInt32) :
    (x * 100000.0 ≤ -9223372036854775808.0 →
        overflows (angleSteps x) = true ∧ wrappedMagnitude (angleSteps x) < 0 ∧
          angleText x precision = numberText x precision) ∧
      (¬ x * 100000.0 ≤ -9223372036854775808.0 →
        overflows (angleSteps x) = false ∧
          ∃ steps : Nat, wrappedMagnitude (angleSteps x) = steps ∧
            IsAngleText x precision (angleText x precision) steps) := by
  rcases wrappedMagnitude_angleSteps x with
    ⟨least, stops, wraps⟩ | ⟨above, fits, steps, known, magnitude, _⟩
  · refine ⟨fun _ => ⟨stops, ?_, angleText_of_wrapped wraps⟩, fun contrary => absurd least contrary⟩
    rw [wraps]
    decide
  · exact ⟨fun contrary => absurd contrary above,
      fun _ => ⟨fits, steps, known, isAngleText_angleText known magnitude⟩⟩

/-- A quarter turn back is spelt, and a large turn back has a count without a magnitude. -/
theorem angleText_faithful_turns :
    (angleText (-1.5707963267948966) 2 = "-Math.PI / 2" ∧
        Names (-1.5707963267948966) true (.quotient 2)) ∧
      overflows (angleSteps (-1e15)) = true ∧ angleText (-1e15) 2 = numberText (-1e15) 2 := by
  have quarter : angleText (-1.5707963267948966) 2 = "-Math.PI / 2" := by decide +kernel
  obtain ⟨_, steps, _, written⟩ := (angleText_faithful (-1.5707963267948966) 2).2 (by decide)
  obtain ⟨stops, _, large⟩ := (angleText_faithful (-1e15) 2).1 (by decide)
  exact ⟨⟨quarter, (written.symbolic true (.quotient 2) (by decide)).mp quarter⟩, stops, large⟩

/-- The count of a large turn back has no magnitude of sixty-four bits, although the turn is a
number that can be written. -/
theorem overflows_large_turn :
    overflows (angleSteps (-1e15)) = true ∧ wrappedMagnitude (angleSteps (-1e15)) < 0 ∧
      numberText (-1e15) 2 = "-1000000000000000" := by
  decide +kernel

end Faithfulness

end SceneMarkup.Markup
