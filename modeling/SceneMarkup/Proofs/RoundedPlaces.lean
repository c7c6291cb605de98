import SceneMarkup.Proofs.Conversions

namespace SceneMarkup.Decimal

/-!
# What rounding to decimal places gives

Rounding to a whole number is exact.  Up to twenty-two places the power of ten is
exact as well, so a number is rounded three times at most: when it is scaled, to
the whole number, and when that is scaled back.
-/

section WholeNumbers

variable {x : Float}

/-- The nearest whole number, a half going away from zero. -/
noncomputable def halfAway (r : ℝ) : ℤ :=
  if r < 0 then -round (-r) else round r

/-- Whole numbers are their own roundings. -/
theorem halfAway_intCast
    (n : ℤ) :
    halfAway n = n := by
  unfold halfAway
  split
  · rw [← Int.cast_neg, round_intCast, neg_neg]
  · exact round_intCast n

/-- The magnitude of the rounding is the rounding of the magnitude. -/
theorem abs_halfAway
    (r : ℝ) :
    |halfAway r| = round |r| := by
  have nonneg : ∀ {r : ℝ}, 0 ≤ r → 0 ≤ round r := by
    intro r above
    rw [round_eq, Int.le_floor]
    push_cast
    linarith
  unfold halfAway
  split
  next negative =>
    rw [abs_neg, abs_of_neg negative, abs_of_nonneg (nonneg (by linarith))]
  next above =>
    rw [abs_of_nonneg (not_lt.mp above), abs_of_nonneg (nonneg (not_lt.mp above))]

/-- Only what is less than a half away from zero becomes zero. -/
theorem halfAway_eq_zero_iff
    {r : ℝ} :
    halfAway r = 0 ↔ |r| < 1 / 2 := by
  rw [← abs_eq_zero, abs_halfAway, round_eq, Int.floor_eq_zero_iff, Set.mem_Ico]
  have nonneg := abs_nonneg r
  constructor
  · rintro ⟨_, small⟩
    linarith
  · intro small
    exact ⟨by linarith, by linarith⟩

/-- Rounding moves a number by a half at most. -/
theorem abs_halfAway_sub_le
    (r : ℝ) :
    |(halfAway r : ℝ) - r| ≤ 1 / 2 := by
  unfold halfAway
  split
  · have near := abs_sub_round (-r)
    rw [← abs_neg]
    push_cast
    rwa [show -(-(round (-r) : ℝ) - r) = -(-r - round (-r)) by ring, abs_neg]
  · rw [abs_sub_comm]
    exact abs_sub_round r

/-- Rounding at most doubles a magnitude. -/
theorem abs_halfAway_le
    (r : ℝ) :
    |(halfAway r : ℝ)| ≤ 2 * |r| := by
  rcases lt_or_ge |r| (1 / 2) with small | large
  · rw [halfAway_eq_zero_iff.mpr small, Int.cast_zero, abs_zero]
    positivity
  · have near := (abs_sub_abs_le_abs_sub _ _).trans (abs_halfAway_sub_le r)
    linarith

theorem real_half :
    (0.5 : Float).isFinite = true ∧ real 0.5 = 1 / 2 := by
  have fraction := @real_of_isFraction 0.5 1 2 two_pos
    (by decide)
  exact_mod_cast fraction

theorem real_one :
    (1.0 : Float).isFinite = true ∧ real 1.0 = 1 := by
  have fraction := @real_of_isFraction 1.0 1 1 one_pos
    (by decide)
  rwa [Nat.cast_one, div_one] at fraction

theorem real_wholeLimit :
    wholeLimit.isFinite = true ∧ real wholeLimit = 2 ^ 52 := by
  have fraction := @real_of_isFraction wholeLimit (2 ^ 52) 1 one_pos (by decide)
  refine ⟨fraction.1, fraction.2.trans ?_⟩
  norm_num

theorem real_zero :
    (0.0 : Float).isFinite = true ∧ real 0.0 = 0 :=
  ⟨by decide, rfl⟩

/-- What is left of a double behind the point is a double. -/
theorem nearest_sub_floor
    (finite : x.isFinite = true)
    (nonneg : 0 ≤ real x) :
    nearest (real x - ⌊real x⌋₊) = real x - ⌊real x⌋₊ := by
  obtain ⟨sign, r, above, _, stands, value⟩ := stands_of_isFinite finite
  have magnitude : real x = r := by
    rw [← abs_of_nonneg nonneg, value, abs_signed above]
  rw [magnitude]
  generalize unpacked x = u at stands
  cases stands with
  | zero => rw [Nat.floor_zero, Nat.cast_zero, sub_zero, nearest_zero]
  | @finite m place positive canonical =>
      rcases le_or_gt 0 place with whole | fractional
      · -- On a grid of whole numbers nothing is left.
        obtain ⟨count, rfl⟩ := Int.eq_ofNat_of_zero_le whole
        have natural : (m : ℝ) * 2 ^ (count : ℤ) = ((m * 2 ^ count : ℕ) : ℝ) := by
          push_cast
          rw [zpow_natCast]
        rw [natural, Nat.floor_natCast, sub_self, nearest_zero]
      · have bound : ((⌊(m : ℝ) * 2 ^ place⌋₊ : ℕ) : ℝ) ≤ m * 2 ^ place := Nat.floor_le above
        generalize ⌊(m : ℝ) * 2 ^ place⌋₊ = n at bound
        obtain ⟨count, minus⟩ := Int.eq_ofNat_of_zero_le (a := -place) (by omega)
        have unit : (2 : ℝ) ^ place * 2 ^ count = 1 := by
          rw [← zpow_natCast, ← zpow_add₀ two_ne_zero, ← minus, add_neg_cancel, zpow_zero]
        have steps : (m : ℝ) * 2 ^ place - n = ((m - n * 2 ^ count : ℤ) : ℝ) * 2 ^ place := by
          push_cast
          linear_combination (n : ℝ) * unit
        have least : n * 2 ^ count ≤ m := by
          have scaled : (n : ℝ) * 2 ^ count ≤ m := by
            calc (n : ℝ) * 2 ^ count ≤ m * 2 ^ place * 2 ^ count :=
                  mul_le_mul_of_nonneg_right bound (by positivity)
              _ = m := by rw [mul_assoc, unit, mul_one]
          exact_mod_cast scaled
        have leastInt : (n : ℤ) * 2 ^ count ≤ m := by exact_mod_cast least
        have shortInt : (m : ℤ) < 2 ^ 53 := by exact_mod_cast canonical.short
        have positiveInt : (0 : ℤ) ≤ n * 2 ^ count := by positivity
        rw [steps]
        refine nearest_of_grid canonical.finest ?_
        rw [abs_of_nonneg (by omega)]
        omega

/-- What is behind the point decides between the two whole numbers beside a number. -/
theorem round_eq_of_floor
    {r : ℝ}
    {n : ℕ}
    (floor : (n : ℝ) ≤ r)
    (next : r < n + 1) :
    round r = if r - n < 1 / 2 then (n : ℤ) else ((n + 1 : ℕ) : ℤ) := by
  rw [round_eq]
  split_ifs with low
  · rw [Int.floor_eq_iff]
    push_cast
    exact ⟨by linarith, by linarith⟩
  · rw [Int.floor_eq_iff]
    push_cast
    exact ⟨by linarith, by linarith⟩

/-- Below the limit a magnitude is rounded to the nearest whole number, a half going up. -/
theorem real_roundMagnitude
    (finite : x.isFinite = true)
    (nonneg : 0 ≤ real x)
    (small : real x < 2 ^ 52) :
    (roundMagnitude x).isFinite = true ∧ real (roundMagnitude x) = round (real x) := by
  have cut := toNat_toUInt64 finite nonneg (by linarith)
  have floor : (⌊real x⌋₊ : ℝ) ≤ real x := Nat.floor_le nonneg
  have next : real x < ⌊real x⌋₊ + 1 := Nat.lt_floor_add_one _
  have short : ⌊real x⌋₊ < 2 ^ 52 := by
    rw [Nat.floor_lt nonneg]
    exact_mod_cast small
  obtain ⟨finiteWhole, whole⟩ := real_toFloat (n := x.toUInt64) (by rw [cut]; omega)
  rw [cut] at whole
  obtain ⟨finiteRest, rest⟩ := (sub_roundsTo finite finiteWhole).exact
    (by rw [whole]; exact nearest_sub_floor finite nonneg)
    (by
      rw [whole, abs_of_nonneg (by linarith)]
      exact (by linarith : real x - ⌊real x⌋₊ < 1).trans
        (one_lt_zpow₀ one_lt_two (by norm_num)))
  rw [whole] at rest
  have branch : x - x.toUInt64.toFloat < 0.5 ↔ real x - ⌊real x⌋₊ < 1 / 2 := by
    rw [lt_iff_real finiteRest real_half.1, rest, real_half.2]
  have rounded := round_eq_of_floor floor next
  unfold roundMagnitude
  simp only
  split
  next low =>
    rw [if_pos (branch.mp low)] at rounded
    rw [rounded, Int.cast_natCast]
    exact ⟨finiteWhole, whole⟩
  next high =>
    have sum := add_roundsTo finiteWhole real_one.1
    rw [whole, real_one.2, ← Nat.cast_add_one] at sum
    rw [if_neg (mt branch.mpr high)] at rounded
    rw [rounded, Int.cast_natCast]
    exact sum.natCast (by omega)

/-- Beyond the limit every double is a whole number. -/
theorem exists_int_of_large
    (finite : x.isFinite = true)
    (large : 2 ^ 52 ≤ |real x|) :
    ∃ n : ℤ, real x = n := by
  obtain ⟨sign, r, above, _, stands, value⟩ := stands_of_isFinite finite
  rw [value, abs_signed above] at large
  rw [value]
  generalize unpacked x = u at stands
  cases stands with
  | zero => exact absurd large (by norm_num)
  | @finite m place positive canonical =>
      have whole : 0 ≤ place := by
        by_contra fractional
        have short : (m : ℝ) < 2 ^ 53 := by exact_mod_cast canonical.short
        have below : (m : ℝ) * 2 ^ place < 2 ^ 52 := by
          calc (m : ℝ) * 2 ^ place < 2 ^ 53 * 2 ^ place :=
                mul_lt_mul_of_pos_right short (two_zpow_pos place)
            _ ≤ 2 ^ 53 * 2 ^ (-1 : ℤ) :=
                mul_le_mul_of_nonneg_left
                  (zpow_le_zpow_right₀ one_le_two (by omega)) (by positivity)
            _ = 2 ^ 52 := by norm_num
        linarith
      obtain ⟨count, rfl⟩ := Int.eq_ofNat_of_zero_le whole
      refine ⟨sign.apply (m * 2 ^ count : ℕ), ?_⟩
      cases sign
      · show -((m : ℝ) * 2 ^ (count : ℤ)) = ((-((m * 2 ^ count : ℕ) : ℤ) : ℤ) : ℝ)
        push_cast
        rw [zpow_natCast]
      · show (m : ℝ) * 2 ^ (count : ℤ) = (((m * 2 ^ count : ℕ) : ℤ) : ℝ)
        push_cast
        rw [zpow_natCast]

/-- A finite double is rounded to a whole number without error. -/
theorem real_roundHalfAway
    (finite : x.isFinite = true) :
    (roundHalfAway x).isFinite = true ∧ real (roundHalfAway x) = halfAway (real x) := by
  obtain ⟨finiteAbs, absolute⟩ := isFinite_abs finite
  have inside : x.abs < wholeLimit ↔ |real x| < 2 ^ 52 := by
    rw [lt_iff_real finiteAbs real_wholeLimit.1, absolute, real_wholeLimit.2]
  have below : x < 0.0 ↔ real x < 0 := by
    rw [lt_iff_real finite real_zero.1, real_zero.2]
  unfold roundHalfAway halfAway
  split
  next within =>
    have small := inside.mp within
    split
    next negative =>
      have sign := below.mp negative
      obtain ⟨finiteNeg, opposite⟩ := isFinite_neg finite
      rw [abs_of_neg sign, ← opposite] at small
      obtain ⟨finiteRound, rounded⟩ :=
        real_roundMagnitude finiteNeg (by rw [opposite]; linarith) small
      obtain ⟨finiteResult, result⟩ := isFinite_neg finiteRound
      rw [if_pos sign]
      refine ⟨finiteResult, ?_⟩
      rw [result, rounded, opposite]
      push_cast
      rfl
    next positive =>
      have sign := not_lt.mp (mt below.mpr positive)
      rw [abs_of_nonneg sign] at small
      rw [if_neg (not_lt.mpr sign)]
      exact real_roundMagnitude finite sign small
  next beyond =>
    obtain ⟨n, whole⟩ := exists_int_of_large finite (not_lt.mp (mt inside.mpr beyond))
    refine ⟨finite, ?_⟩
    have kept := halfAway_intCast n
    unfold halfAway at kept
    rw [whole, kept]

end WholeNumbers

section Places

variable {x : Float} {precision : UInt32}

/-- Up to twenty-two places the power of ten is exact. -/
theorem real_scaleFactor
    (within : precision.toNat ≤ 22) :
    (scaleFactor precision).isFinite = true ∧
      real (scaleFactor precision) = 10 ^ precision.toNat := by
  have table : ∀ places : Fin 23,
      IsFraction (10 ^ places.val) 1 (unpacked (scaleFactor (UInt32.ofNat places.val))) := by
    decide +kernel
  obtain ⟨finite, value⟩ :=
    real_of_isFraction one_pos (table ⟨precision.toNat, Nat.lt_succ_of_le within⟩)
  rw [UInt32.ofNat_toNat] at finite value
  refine ⟨finite, value.trans ?_⟩
  push_cast
  rw [div_one]

/-- What a number of places makes of a number before it is rounded to a whole one. -/
noncomputable def scaled (r : ℝ) (places : ℕ) : ℝ :=
  nearest (r * 10 ^ places)

/-- Where the arithmetic gives an infinity so does the rounding. -/
theorem unpacked_roundTo_of_infinity
    {sign : Float.Model.UnpackedFloat.Sign}
    (infinite :
      unpacked (roundHalfAway (x * scaleFactor precision) / scaleFactor precision) =
        .infinity sign) :
    unpacked (roundTo x precision) = .infinity sign := by
  unfold roundTo
  simp only
  split
  next zero =>
    obtain ⟨zeroSign, nothing⟩ := beq_zero_iff.mp zero
    rw [infinite] at nothing
    cases nothing
  next => exact infinite

/-- Where the arithmetic stays finite the rounding has its value. -/
theorem real_roundTo_of_isFinite
    {r : ℝ}
    (finite :
      (roundHalfAway (x * scaleFactor precision) / scaleFactor precision).isFinite = true)
    (value : real (roundHalfAway (x * scaleFactor precision) / scaleFactor precision) = r) :
    (roundTo x precision).isFinite = true ∧ real (roundTo x precision) = r := by
  unfold roundTo
  simp only
  split
  next zero =>
    have nothing := (beq_iff_real finite real_zero.1).mp zero
    exact ⟨real_zero.1, nothing.symm.trans value⟩
  next => exact ⟨finite, value⟩

/-- What equals zero when it is rounded is zero without a sign. -/
theorem roundTo_eq_zero
    (zero : Float.beq (roundTo x precision) 0.0 = true) :
    roundTo x precision = 0.0 := by
  unfold roundTo at zero ⊢
  simp only at zero ⊢
  split at zero
  next nothing => exact if_pos nothing
  next some => exact absurd zero some

/-- Whole numbers that doubles are rounded to do not overflow when they are divided. -/
theorem abs_nearest_quotient_lt
    (finite : x.isFinite = true)
    {factor : ℝ}
    (one : 1 ≤ factor) :
    |nearest (halfAway (real x) / factor)| < 2 ^ (1024 : ℤ) := by
  obtain ⟨finiteWhole, whole⟩ := real_roundHalfAway finite
  have shrinks : |(halfAway (real x) : ℝ) / factor| ≤ |(halfAway (real x) : ℝ)| := by
    rw [abs_div, abs_of_pos (one_pos.trans_le one)]
    exact div_le_self (abs_nonneg _) one
  calc |nearest (halfAway (real x) / factor)| ≤ nearest |(halfAway (real x) : ℝ)| := by
        rw [abs_nearest]
        exact nearest_mono (abs_nonneg _) shrinks
    _ = |real (roundHalfAway x)| := by rw [← whole, ← abs_nearest, nearest_real finiteWhole]
    _ < 2 ^ (1024 : ℤ) := abs_real_lt finiteWhole

/-- What is infinite when it is scaled stays so. -/
theorem infinite_roundTo
    (finite : (scaleFactor precision).isFinite = true)
    (some : real (scaleFactor precision) ≠ 0)
    {sign : Float.Model.UnpackedFloat.Sign}
    (infinite : unpacked (x * scaleFactor precision) = .infinity sign) :
    ∃ other, unpacked (roundTo x precision) = .infinity other := by
  obtain ⟨head, r, _, _, stands, value⟩ := stands_of_isFinite finite
  have product : x * scaleFactor precision = packed (.infinity sign) := by
    rw [← infinite, packed_unpacked]
  have quotient :
      ∃ other, unpacked (roundHalfAway (x * scaleFactor precision) / scaleFactor precision) =
        .infinity other := by
    rw [product, roundHalfAway_infinity, div_eq, unpacked_packed_infinity]
    generalize unpacked (scaleFactor precision) = u at stands
    cases stands with
    | zero => exact absurd (value.trans signed_zero) some
    | finite positive canonical => exact ⟨_, unpacked_packed_infinity _⟩
  obtain ⟨other, same⟩ := quotient
  exact ⟨other, unpacked_roundTo_of_infinity same⟩

/-- What a number is rounded to with a factor: it is scaled, made a whole number and scaled back. -/
noncomputable def rescaled (r factor : ℝ) : ℝ :=
  nearest (halfAway (nearest (r * factor)) / factor)

/-- A number is scaled, made a whole number and scaled back, unless it becomes infinite on the
way. -/
theorem roundTo_cases
    (finite : x.isFinite = true)
    (finiteFactor : (scaleFactor precision).isFinite = true)
    (some : real (scaleFactor precision) ≠ 0) :
    let factor := real (scaleFactor precision)
    (|nearest (real x * factor)| < 2 ^ (1024 : ℤ) ∧
        (roundTo x precision).isFinite = true ∧
        real (roundTo x precision) = rescaled (real x) factor) ∨
      ((2 ^ (1024 : ℤ) ≤ |nearest (real x * factor)| ∨
          2 ^ (1024 : ℤ) ≤ |rescaled (real x) factor|) ∧
        ∃ sign, unpacked (roundTo x precision) = .infinity sign) := by
  rcases mul_roundsTo finite finiteFactor with ⟨finiteProduct, product⟩ | ⟨large, infinite⟩
  · obtain ⟨finiteWhole, whole⟩ := real_roundHalfAway finiteProduct
    have quotient := div_roundsTo finiteWhole finiteFactor some
    rw [whole, product] at quotient
    rcases quotient with ⟨finiteResult, result⟩ | ⟨large, infinite⟩
    · have below := abs_real_lt finiteProduct
      rw [product] at below
      exact .inl ⟨below, real_roundTo_of_isFinite finiteResult result⟩
    · exact .inr ⟨.inr large, _, unpacked_roundTo_of_infinity infinite⟩
  · exact .inr ⟨.inl large, infinite_roundTo finiteFactor some infinite⟩

/-- Up to twenty-two places only the product can become infinite. -/
theorem roundTo_spec
    (finite : x.isFinite = true)
    (within : precision.toNat ≤ 22) :
    ((roundTo x precision).isFinite = true ∧
        real (roundTo x precision) =
          nearest (halfAway (scaled (real x) precision.toNat) / 10 ^ precision.toNat)) ∨
      (2 ^ (1024 : ℤ) ≤ |scaled (real x) precision.toNat| ∧
        ∃ sign, unpacked (roundTo x precision) = .infinity sign) := by
  obtain ⟨finiteFactor, factor⟩ := real_scaleFactor within
  have tens : (1 : ℝ) ≤ 10 ^ precision.toNat := one_le_pow₀ (by norm_num)
  have cases := roundTo_cases finite finiteFactor (by rw [factor]; positivity)
  rw [factor] at cases
  rcases cases with ⟨_, finiteResult, result⟩ | ⟨large | large, infinite⟩
  · exact .inl ⟨finiteResult, result⟩
  · exact .inr ⟨large, infinite⟩
  · have product := mul_roundsTo finite finiteFactor
    rw [factor] at product
    rcases product with ⟨finiteProduct, value⟩ | ⟨large, _⟩
    · have below := abs_nearest_quotient_lt finiteProduct tens
      rw [value] at below
      exact absurd large (not_le.mpr below)
    · exact .inr ⟨large, infinite⟩

/-- A whole number that is not zero is not zero when it is scaled back. -/
theorem nearest_div_ne_zero
    {n : ℤ}
    {places : ℕ}
    (some : n ≠ 0)
    (within : places ≤ 22) :
    nearest (n / 10 ^ places) ≠ 0 := by
  have tens : (0 : ℝ) < 10 ^ places := by positivity
  have bound : (10 : ℝ) ^ places ≤ 2 ^ (74 : ℕ) := by
    calc (10 : ℝ) ^ places ≤ 10 ^ 22 := pow_le_pow_right₀ (by norm_num) within
      _ ≤ 2 ^ (74 : ℕ) := by norm_num
  have least : (2 : ℝ) ^ (-74 : ℤ) ≤ |(n : ℝ) / 10 ^ places| := by
    have one : (1 : ℝ) ≤ |(n : ℝ)| := by exact_mod_cast Int.one_le_abs some
    rw [abs_div, abs_of_pos tens, le_div_iff₀ tens]
    calc (2 : ℝ) ^ (-74 : ℤ) * 10 ^ places ≤ 2 ^ (-74 : ℤ) * 2 ^ (74 : ℕ) :=
          mul_le_mul_of_nonneg_left bound (two_zpow_pos _).le
      _ = 1 := by norm_num
      _ ≤ |(n : ℝ)| := one
  have kept := @nearest_two_zpow (-74) (by norm_num)
  have above : (2 : ℝ) ^ (-74 : ℤ) ≤ |nearest (n / 10 ^ places)| := by
    rw [abs_nearest, ← kept]
    exact nearest_mono (two_zpow_pos _).le least
  exact abs_pos.mp ((two_zpow_pos _).trans_le above)

/-- A number is rounded to zero exactly if it is less than half a unit when it is scaled. -/
theorem roundTo_eq_zero_iff
    (finite : x.isFinite = true)
    (within : precision.toNat ≤ 22) :
    Float.beq (roundTo x precision) 0.0 = true ↔ |scaled (real x) precision.toNat| < 1 / 2 := by
  rcases roundTo_spec finite within with ⟨finiteResult, result⟩ | ⟨large, sign, infinite⟩
  · rw [beq_iff_real finiteResult real_zero.1, real_zero.2, result, ← halfAway_eq_zero_iff]
    constructor
    · intro nothing
      by_contra some
      exact nearest_div_ne_zero some within nothing
    · intro nothing
      rw [nothing, Int.cast_zero, zero_div, nearest_zero]
  · constructor
    · intro zero
      obtain ⟨other, nothing⟩ := beq_zero_iff.mp zero
      rw [infinite] at nothing
      cases nothing
    · intro small
      have one : (1 : ℝ) < 2 ^ (1024 : ℤ) := one_lt_zpow₀ one_lt_two (by norm_num)
      exact absurd small (not_lt.mpr (one_half_lt_one.le.trans (one.le.trans large)))

end Places

end SceneMarkup.Decimal
