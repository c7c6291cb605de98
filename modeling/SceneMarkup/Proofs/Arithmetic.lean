import SceneMarkup.Proofs.DoubleValues

namespace SceneMarkup.Decimal

open Float.Model UnpackedFloat

/-!
# Arithmetic of doubles

Every operation gives what the exact result is rounded to.  The significand of
the exact result is computed with enough bits, or with a remark on what is behind
its last one, and then rounded once.
-/

variable {sign other : Sign} {m n : ℕ} {place : ℤ} {x y : Float}

section Exact

theorem div_two_zpow
    (m : ℕ)
    (place : ℤ) :
    (m : ℝ) * 2 ^ place / 2 ^ place = m :=
  mul_div_cancel_right₀ _ (two_zpow_pos place).ne'

/-- A significand with enough bits and nothing behind them is rounded to the nearest double. -/
theorem stands_exact
    (fine : place ≤ Format.binary64.targetExponent (totalExponent m place)) :
    Stands sign (nearest (m * 2 ^ place))
      (roundWithAccuracy Format.binary64 sign m place .exact) := by
  have scaled := div_two_zpow m place
  refine stands_roundWithAccuracy (mul_nonneg (Nat.cast_nonneg m) (two_zpow_pos place).le)
    ?_ ?_ ?_ fine
  · rw [scaled]
    exact describes_exact m
  · exact scaled.ge
  · rw [scaled]
    exact lt_add_one _

theorem log2_shiftLeft
    (some : m ≠ 0)
    (count : ℕ) :
    (m <<< count).log2 = m.log2 + count := by
  induction count with
  | zero => rfl
  | succ count ih =>
      have shifted : m <<< count ≠ 0 := by
        rw [Nat.shiftLeft_eq]
        exact mul_ne_zero some (pow_ne_zero _ two_ne_zero)
      rw [Nat.shiftLeft_succ, Nat.log2_two_mul shifted, ih, Nat.add_assoc]

/-- A significand is rounded to the nearest double once it is given enough bits. -/
theorem stands_round
    (some : 0 < m)
    (sign : Sign)
    (place : ℤ) :
    Stands sign (nearest (m * 2 ^ place)) (UnpackedFloat.round Format.binary64 sign m place) := by
  have shifted :
      UnpackedFloat.round Format.binary64 sign m place =
        roundWithAccuracy Format.binary64 sign
          (m <<< (place - Format.binary64.targetExponent (totalExponent m place)).toNat)
          (place - (place - Format.binary64.targetExponent (totalExponent m place)).toNat)
          .exact := rfl
  rw [shifted]
  generalize amount :
    (place - Format.binary64.targetExponent (totalExponent m place)).toNat = count
  have same : (m : ℝ) * 2 ^ place = ((m <<< count : ℕ) : ℝ) * 2 ^ (place - (count : ℤ)) := by
    rw [Nat.shiftLeft_eq, zpow_sub₀ two_ne_zero, zpow_natCast]
    push_cast
    field_simp
  have order : (m <<< count).log2 = m.log2 + count := log2_shiftLeft some.ne' count
  rw [same]
  apply stands_exact
  rw [targetExponent_eq] at amount ⊢
  rw [order]
  push_cast
  omega

theorem roundsTo_zero
    (sign : Sign) :
    RoundsTo 0 (packed (.zero sign)) := by
  have stands : Stands sign (nearest 0) (.zero sign) := by
    rw [nearest_zero]
    exact .zero
  have rounds := roundsTo_packed le_rfl stands
  rwa [signed_zero] at rounds

/-- A whole number of steps of a grid is rounded to the nearest double. -/
theorem roundsTo_normalize
    (steps place : ℤ)
    (zero : Sign) :
    RoundsTo (steps * 2 ^ place)
      (packed (UnpackedFloat.normalize Format.binary64 steps place zero)) := by
  unfold UnpackedFloat.normalize
  rcases lt_trichotomy steps 0 with negative | rfl | positive
  · rw [compare_lt_iff_lt.mpr negative]
    have value : (steps : ℝ) * 2 ^ place =
        signed .negative (((-steps).toNat : ℕ) * 2 ^ place) := by
      have natural : (((-steps).toNat : ℕ) : ℝ) = -steps := by
        exact_mod_cast Int.toNat_of_nonneg (by omega)
      rw [signed, natural]
      ring
    rw [value]
    exact roundsTo_packed (mul_nonneg (Nat.cast_nonneg _) (two_zpow_pos place).le)
      (stands_round (by omega) _ _)
  · rw [compare_eq_iff_eq.mpr rfl, Int.cast_zero, zero_mul]
    exact roundsTo_zero zero
  · rw [compare_gt_iff_gt.mpr positive]
    have value : (steps : ℝ) * 2 ^ place = signed .positive ((steps.toNat : ℕ) * 2 ^ place) := by
      have natural : ((steps.toNat : ℕ) : ℝ) = steps := by
        exact_mod_cast Int.toNat_of_nonneg positive.le
      rw [signed, natural]
    rw [value]
    exact roundsTo_packed (mul_nonneg (Nat.cast_nonneg _) (two_zpow_pos place).le)
      (stands_round (by omega) _ _)

end Exact

section Operations

theorem signed_mul
    (sign other : Sign)
    (r s : ℝ) :
    signed sign r * signed other s = signed (sign * other) (r * s) := by
  cases sign <;> cases other
  · exact neg_mul_neg r s
  · exact neg_mul r s
  · exact mul_neg r s
  · rfl

/-- The product of two doubles. -/
theorem mul_roundsTo
    (first : x.isFinite = true)
    (second : y.isFinite = true) :
    RoundsTo (real x * real y) (x * y) := by
  obtain ⟨sign, r, _, _, stands, value⟩ := stands_of_isFinite first
  obtain ⟨other, s, _, _, stands', value'⟩ := stands_of_isFinite second
  rw [mul_eq, value, value']
  generalize unpacked x = u at stands
  generalize unpacked y = v at stands'
  cases stands with
  | zero =>
      rw [signed_zero, zero_mul]
      cases stands' <;> exact roundsTo_zero _
  | @finite m place positive canonical =>
      cases stands' with
      | zero =>
          rw [signed_zero, mul_zero]
          exact roundsTo_zero _
      | @finite n place' positive' canonical' =>
          have product : (m : ℝ) * 2 ^ place * (n * 2 ^ place') =
              ((m * n : ℕ) : ℝ) * 2 ^ (place + place') := by
            rw [zpow_add₀ two_ne_zero]
            push_cast
            ring
          rw [signed_mul, product]
          refine roundsTo_packed (mul_nonneg (Nat.cast_nonneg _) (two_zpow_pos _).le)
            (stands_exact ?_)
          -- One full significand is enough; without any, both grids are the finest.
          rw [targetExponent_eq]
          have long : (2 ^ 52 ≤ m ∨ 2 ^ 52 ≤ n) → 52 ≤ (m * n).log2 := by
            intro full
            refine (Nat.le_log2 (Nat.mul_pos positive positive').ne').mpr ?_
            rcases full with full | full
            · exact full.trans (Nat.le_mul_of_pos_right m positive')
            · exact full.trans (Nat.le_mul_of_pos_left n positive)
          have small := canonical.full
          have small' := canonical'.full
          omega

/-- A finite double is what its own value is rounded to. -/
theorem roundsTo_real
    (finite : x.isFinite = true) :
    RoundsTo (real x) x :=
  .fits finite (nearest_real finite).symm

/-- A significand on a finer grid stands for the same number. -/
theorem apply_shiftLeft
    {finer : ℤ}
    (fine : finer ≤ place)
    (sign : Sign)
    (m : ℕ) :
    ((sign.apply ((m <<< (place - finer).toNat : ℕ) : ℤ) : ℤ) : ℝ) * 2 ^ finer =
      signed sign (m * 2 ^ place) := by
  obtain ⟨count, rfl⟩ := Int.le.dest fine
  have amount : (finer + (count : ℤ) - finer).toNat = count := by omega
  have same : (((m <<< count : ℕ) : ℤ) : ℝ) * 2 ^ finer = m * 2 ^ (finer + (count : ℤ)) := by
    rw [Nat.shiftLeft_eq, zpow_add₀ two_ne_zero, zpow_natCast]
    push_cast
    ring
  rw [amount]
  cases sign
  · show ((-((m <<< count : ℕ) : ℤ) : ℤ) : ℝ) * 2 ^ finer = -(m * 2 ^ (finer + (count : ℤ)))
    rw [← same]
    push_cast
    ring
  · exact same

/-- The sum of two doubles. -/
theorem add_roundsTo
    (first : x.isFinite = true)
    (second : y.isFinite = true) :
    RoundsTo (real x + real y) (x + y) := by
  have sum : x + y = packed ((unpacked x).add Format.binary64 (unpacked y)) := rfl
  obtain ⟨sign, r, _, _, stands, value⟩ := stands_of_isFinite first
  obtain ⟨other, s, _, _, stands', value'⟩ := stands_of_isFinite second
  have whole := packed_unpacked x
  have whole' := packed_unpacked y
  rw [sum]
  generalize unpacked x = u at stands whole
  generalize unpacked y = v at stands' whole'
  cases stands with
  | zero =>
      rw [signed_zero] at value
      rw [value, zero_add]
      cases stands' with
      | zero =>
          rw [value', signed_zero]
          cases sign <;> cases other <;> exact roundsTo_zero _
      | finite positive' canonical' =>
          show RoundsTo (real y) (packed (.finite other _ _ positive'))
          rw [whole']
          exact roundsTo_real second
  | @finite m place positive canonical =>
      cases stands' with
      | zero =>
          rw [signed_zero] at value'
          rw [value', add_zero]
          show RoundsTo (real x) (packed (.finite sign m place positive))
          rw [whole]
          exact roundsTo_real first
      | @finite n place' positive' canonical' =>
          have steps : real x + real y =
              ((sign.apply ((m <<< (place - min place place').toNat : ℕ) : ℤ)
                + other.apply ((n <<< (place' - min place place').toNat : ℕ) : ℤ) : ℤ) : ℝ)
                * 2 ^ min place place' := by
            rw [Int.cast_add, add_mul, apply_shiftLeft (min_le_left _ _),
              apply_shiftLeft (min_le_right _ _), value, value']
          rw [steps]
          exact roundsTo_normalize _ _ _

theorem isFinite_neg
    (finite : x.isFinite = true) :
    (-x).isFinite = true ∧ real (-x) = -real x := by
  have known : (unpacked x).isFinite = true := finite
  have negated := unpacked_neg x
  refine ⟨?_, ?_⟩
  · show (unpacked (-x)).isFinite = true
    rw [negated]
    cases read : unpacked x <;> simp_all [UnpackedFloat.isFinite, UnpackedFloat.neg]
  · rw [real, real, negated]
    cases unpacked x with
    | finite sign =>
        cases sign
        · exact (neg_neg _).symm
        · rfl
    | _ => exact neg_zero.symm

theorem isFinite_abs
    (finite : x.isFinite = true) :
    x.abs.isFinite = true ∧ real x.abs = |real x| := by
  obtain ⟨sign, r, nonneg, _, stands, value⟩ := stands_of_isFinite finite
  have absolute : Stands .positive r (unpacked x.abs) := by
    have packedAbs : unpacked x.abs = unpacked (packed (unpacked x).abs) := rfl
    rw [packedAbs]
    cases read : unpacked x with
    | notANumber =>
        rw [read] at stands
        cases stands
    | infinity =>
        rw [read] at stands
        cases stands
    | zero head =>
        rw [read] at stands
        cases stands
        have kept : unpacked (packed (.zero .positive)) = .zero .positive := rfl
        show Stands .positive 0 (unpacked (packed (.zero .positive)))
        rw [kept]
        exact .zero
    | finite head m place positive =>
        obtain ⟨canonical, fits⟩ := canonical_of_unpacked read
        rw [read] at stands
        cases stands
        have kept : unpacked (packed (UnpackedFloat.finite sign m place positive).abs) =
            .finite .positive m place positive :=
          unpacked_packed_of_canonical canonical fits positive
        rw [kept]
        exact .finite positive canonical
  refine ⟨isFinite_of_stands absolute, ?_⟩
  rw [real, value_of_stands absolute, value, abs_signed nonneg]
  rfl

/-- A difference is the sum with the opposite. -/
theorem sub_eq_add_opposite
    (x y : Float) :
    x - y = x + -y := by
  have difference : x - y = packed ((unpacked x).sub Format.binary64 (unpacked y)) := rfl
  have sum : x + -y = packed ((unpacked x).add Format.binary64 (unpacked (-y))) := rfl
  rw [difference, sum, unpacked_neg]
  congr 1
  cases unpacked x with
  | notANumber => rfl
  | infinity sign => cases unpacked y <;> rfl
  | zero sign => cases unpacked y <;> rfl
  | finite sign m place positive =>
      cases unpacked y with
      | finite other n place' positive' =>
          have turned : ∀ steps : ℤ, -other.apply steps = (-other).apply steps := by
            intro steps
            cases other
            · exact neg_neg steps
            · rfl
          simp only [UnpackedFloat.sub, UnpackedFloat.add, UnpackedFloat.neg, sub_eq_add_neg,
            turned]
      | _ => rfl

/-- The difference of two doubles. -/
theorem sub_roundsTo
    (first : x.isFinite = true)
    (second : y.isFinite = true) :
    RoundsTo (real x - real y) (x - y) := by
  obtain ⟨opposite, value⟩ := isFinite_neg second
  rw [sub_eq_add_opposite, sub_eq_add_neg, ← value]
  exact add_roundsTo first opposite

end Operations

section Quotients

/-- What is left of a division, compared with the divisor, is what is left of the quotient. -/
theorem describes_quotient
    (dividend : ℕ)
    {divisor : ℕ}
    (some : 0 < divisor) :
    Describes
      (.ofMantissaAndAccuracy (dividend / divisor)
        (accuracyOfFraction (dividend % divisor) divisor))
      ((dividend : ℝ) / divisor) := by
  have positive : (0 : ℝ) < divisor := Nat.cast_pos.mpr some
  have split : (dividend : ℝ) / divisor =
      ((dividend / divisor : ℕ) : ℝ) + ((dividend % divisor : ℕ) : ℝ) / divisor := by
    have whole : (dividend : ℝ) =
        divisor * ((dividend / divisor : ℕ) : ℝ) + ((dividend % divisor : ℕ) : ℝ) := by
      exact_mod_cast (Nat.div_add_mod dividend divisor).symm
    rw [whole]
    field_simp
  have small : dividend % divisor < divisor := Nat.mod_lt _ some
  generalize dividend % divisor = rest at split small
  rw [split]
  unfold accuracyOfFraction
  rcases eq_or_ne rest 0 with rfl | more
  · rw [if_pos rfl, Nat.cast_zero, zero_div, add_zero]
    exact describes_exact _
  · have above : (0 : ℝ) < rest := Nat.cast_pos.mpr (Nat.pos_of_ne_zero more)
    rw [if_neg more]
    rcases lt_trichotomy (2 * rest) divisor with low | half | high
    · have lowReal : 2 * (rest : ℝ) < divisor := by exact_mod_cast low
      rw [compare_lt_iff_lt.mpr low]
      refine describes_below _ (div_pos above positive) ?_
      rw [div_lt_iff₀ positive]
      linarith
    · have halfReal : (rest : ℝ) / divisor = 1 / 2 := by
        rw [div_eq_iff positive.ne', ← half]
        push_cast
        ring
      rw [compare_eq_iff_eq.mpr half, halfReal]
      exact describes_half _
    · have highReal : (divisor : ℝ) < 2 * rest := by exact_mod_cast high
      have smallReal : (rest : ℝ) < divisor := by exact_mod_cast small
      rw [compare_gt_iff_gt.mpr high, ← add_sub_cancel (1 / 2) ((rest : ℝ) / divisor), ← add_assoc]
      refine describes_above _ ?_ ?_
      · rw [sub_pos, lt_div_iff₀ positive]
        linarith
      · rw [sub_lt_iff_lt_add, div_lt_iff₀ positive]
        linarith

theorem signed_div
    (sign other : Sign)
    (r s : ℝ) :
    signed sign r / signed other s = signed (sign / other) (r / s) := by
  cases sign <;> cases other
  · exact neg_div_neg_eq r s
  · exact neg_div s r
  · exact div_neg r
  · rfl

theorem two_pow_le_shiftLeft
    {bits count : ℕ}
    (some : 0 < m)
    (long : bits ≤ m.log2 + count) :
    2 ^ bits ≤ m <<< count := by
  refine (Nat.le_log2 ?_).mp ?_
  · rw [Nat.shiftLeft_eq]
    positivity
  · rwa [log2_shiftLeft some.ne']

/-- Unless the grid is the finest, a quotient has as many bits as a double keeps. -/
theorem quotient_fine
    {count : ℕ}
    {target place place' : ℤ}
    (positive : 0 < m)
    (positive' : 0 < n)
    (amount : place - place' = target + count)
    (bound : target ≤ max ((m.log2 : ℤ) + place - (n.log2 + place') - 53) (-1074)) :
    target ≤ Format.binary64.targetExponent (totalExponent ((m <<< count) / n) target) := by
  rw [targetExponent_eq]
  rcases le_or_gt target (-1074) with finest | coarse
  · omega
  · have large : 2 ^ (n.log2 + 53) ≤ m <<< count := two_pow_le_shiftLeft positive (by omega)
    have full : 2 ^ 52 ≤ (m <<< count) / n := by
      rw [Nat.le_div_iff_mul_le positive']
      calc 2 ^ 52 * n ≤ 2 ^ 52 * 2 ^ (n.log2 + 1) := Nat.mul_le_mul_left _ Nat.lt_log2_self.le
        _ = 2 ^ (n.log2 + 53) := by rw [← pow_add]; congr 1; omega
        _ ≤ m <<< count := large
    have order : 52 ≤ ((m <<< count) / n).log2 := (Nat.le_log2 (by omega)).mpr full
    omega

/-- Significands are divided with enough bits, and what is left over is remarked. -/
theorem roundsTo_div
    (place place' : ℤ)
    (positive : 0 < m)
    (positive' : 0 < n) :
    RoundsTo (signed sign (m * 2 ^ place) / signed other (n * 2 ^ place'))
      (packed ((UnpackedFloat.finite sign m place positive).div Format.binary64
        (.finite other n place' positive'))) := by
  let target := min (place - place')
    (Format.binary64.targetExponent (totalExponent m place - totalExponent n place'))
  let count := (place - place' - target).toNat
  have quotient :
      (UnpackedFloat.finite sign m place positive).div Format.binary64
          (.finite other n place' positive') =
        roundWithAccuracy Format.binary64 (sign / other) ((m <<< count) / n) target
          (accuracyOfFraction ((m <<< count) % n) n) := rfl
  have amount : place - place' = target + count := by
    have least : target ≤ place - place' := min_le_left _ _
    omega
  have scaled : (m : ℝ) * 2 ^ place / (n * 2 ^ place') / 2 ^ target =
      ((m <<< count : ℕ) : ℝ) / n := by
    have split : (2 : ℝ) ^ place = 2 ^ target * 2 ^ count * 2 ^ place' := by
      rw [← zpow_natCast, ← zpow_add₀ two_ne_zero, ← zpow_add₀ two_ne_zero]
      congr 1
      omega
    have apart := (two_zpow_pos place').ne'
    have apart' := (two_zpow_pos target).ne'
    rw [split, Nat.shiftLeft_eq]
    push_cast
    field_simp
  have positiveReal : (0 : ℝ) < n := Nat.cast_pos.mpr positive'
  rw [signed_div, quotient]
  refine roundsTo_packed (div_nonneg (mul_nonneg (Nat.cast_nonneg m) (two_zpow_pos _).le)
    (mul_nonneg (Nat.cast_nonneg n) (two_zpow_pos _).le)) (stands_roundWithAccuracy ?_ ?_ ?_ ?_ ?_)
  · exact div_nonneg (mul_nonneg (Nat.cast_nonneg m) (two_zpow_pos _).le)
      (mul_nonneg (Nat.cast_nonneg n) (two_zpow_pos _).le)
  · rw [scaled]
    exact describes_quotient _ positive'
  · rw [scaled]
    exact Nat.cast_div_le
  · rw [scaled, div_lt_iff₀ positiveReal]
    exact_mod_cast Nat.lt_mul_of_div_lt (Nat.lt_succ_self _) positive'
  · refine quotient_fine positive positive' amount ((min_le_right _ _).trans (le_of_eq ?_))
    show max ((m.log2 : ℤ) + 1 + place - (n.log2 + 1 + place') - (1 + 52 : ℕ))
      (3 - 2 ^ 10 - (1 + 52 : ℕ)) = _
    congr 1
    push_cast
    ring

/-- The quotient of two doubles. -/
theorem div_roundsTo
    (first : x.isFinite = true)
    (second : y.isFinite = true)
    (some : real y ≠ 0) :
    RoundsTo (real x / real y) (x / y) := by
  obtain ⟨sign, r, _, _, stands, value⟩ := stands_of_isFinite first
  obtain ⟨other, s, _, _, stands', value'⟩ := stands_of_isFinite second
  rw [div_eq, value, value']
  rw [value'] at some
  generalize unpacked x = u at stands
  generalize unpacked y = v at stands'
  cases stands' with
  | zero => exact absurd signed_zero some
  | finite positive' canonical' =>
      cases stands with
      | zero =>
          rw [signed_zero, zero_div]
          exact roundsTo_zero _
      | finite positive canonical => exact roundsTo_div _ _ positive positive'

end Quotients

section Roots

/-- What is left of a root, compared with the root, is where the exact root lies. -/
theorem describes_root
    (square : ℕ) :
    Describes
      (.ofMantissaAndAccuracy (Nat.sqrt square)
        (if square - Nat.sqrt square * Nat.sqrt square = 0 then .exact
        else .inexact (if square - Nat.sqrt square * Nat.sqrt square ≤ Nat.sqrt square then .lt
          else .gt)))
      √(square : ℝ) := by
  have least : Nat.sqrt square * Nat.sqrt square ≤ square := Nat.sqrt_le square
  have most : square < (Nat.sqrt square + 1) * (Nat.sqrt square + 1) := Nat.lt_succ_sqrt square
  generalize Nat.sqrt square = root at least most
  obtain ⟨rest, rfl⟩ := Nat.exists_eq_add_of_le least
  have nonneg : (0 : ℝ) ≤ root := Nat.cast_nonneg root
  have below : √((root * root + rest : ℕ) : ℝ) < root + 1 := by
    rw [Real.sqrt_lt' (by linarith)]
    have mostReal : ((root * root + rest : ℕ) : ℝ) < (root + 1) * (root + 1) := by
      exact_mod_cast most
    linarith
  rw [Nat.add_sub_cancel_left]
  rcases eq_or_ne rest 0 with rfl | more
  · rw [if_pos rfl, Nat.add_zero, Nat.cast_mul, Real.sqrt_mul_self nonneg]
    exact describes_exact root
  · have some : (0 : ℝ) < rest := Nat.cast_pos.mpr (Nat.pos_of_ne_zero more)
    rw [if_neg more]
    rcases le_or_gt rest root with low | high
    · have lowReal : (rest : ℝ) ≤ root := by exact_mod_cast low
      have above : (root : ℝ) < √((root * root + rest : ℕ) : ℝ) := by
        rw [Real.lt_sqrt nonneg]
        push_cast
        linarith
      have half : √((root * root + rest : ℕ) : ℝ) < root + 1 / 2 := by
        rw [Real.sqrt_lt' (by linarith)]
        push_cast
        linarith
      rw [if_pos low, ← add_sub_cancel (root : ℝ) √_]
      exact describes_below root (by linarith) (by linarith)
    · have highReal : (root : ℝ) + 1 ≤ rest := by exact_mod_cast high
      have half : (root : ℝ) + 1 / 2 < √((root * root + rest : ℕ) : ℝ) := by
        rw [Real.lt_sqrt (by linarith)]
        push_cast
        linarith
      rw [if_neg (not_le.mpr high), ← add_sub_cancel ((root : ℝ) + 1 / 2) √_]
      exact describes_above root (by linarith) (by linarith)

/-- Unless the grid is the finest, a root has as many bits as a double keeps. -/
theorem root_fine
    {count : ℕ}
    {target : ℤ}
    (positive : 0 < m)
    (amount : place = 2 * target + count)
    (bound : target ≤ max (((m.log2 : ℤ) + 1 + place + 1) / 2 - 53) (-1074)) :
    target ≤ Format.binary64.targetExponent (totalExponent (Nat.sqrt (m <<< count)) target) := by
  rw [targetExponent_eq]
  rcases le_or_gt target (-1074) with finest | coarse
  · omega
  · have large : 2 ^ 104 ≤ m <<< count := two_pow_le_shiftLeft positive (by omega)
    have full : 2 ^ 52 ≤ Nat.sqrt (m <<< count) := by
      rw [Nat.le_sqrt]
      exact large
    have order : 52 ≤ (Nat.sqrt (m <<< count)).log2 := (Nat.le_log2 (by omega)).mpr full
    omega

/-- The root of a shifted significand is taken with enough bits. -/
theorem roundsTo_sqrt
    (place : ℤ)
    (positive : 0 < m) :
    RoundsTo √(m * 2 ^ place)
      (packed ((UnpackedFloat.finite .positive m place positive).sqrt Format.binary64)) := by
  let target := min (place.ediv 2)
    (Format.binary64.targetExponent ((totalExponent m place + 1).ediv 2))
  let count := (place - 2 * target).toNat
  have root :
      (UnpackedFloat.finite .positive m place positive).sqrt Format.binary64 =
        roundWithAccuracy Format.binary64 .positive (Nat.sqrt (m <<< count)) target
          (if m <<< count - Nat.sqrt (m <<< count) * Nat.sqrt (m <<< count) = 0 then .exact
          else .inexact
            (if m <<< count - Nat.sqrt (m <<< count) * Nat.sqrt (m <<< count)
              ≤ Nat.sqrt (m <<< count) then .lt
            else .gt)) := rfl
  have amount : place = 2 * target + count := by
    have least : target ≤ place / 2 := min_le_left _ _
    omega
  have scaled : √((m : ℝ) * 2 ^ place) / 2 ^ target = √((m <<< count : ℕ) : ℝ) := by
    have split : (m : ℝ) * 2 ^ place = ((m <<< count : ℕ) : ℝ) * (2 ^ target) ^ 2 := by
      rw [amount, zpow_add₀ two_ne_zero, zpow_natCast, two_mul, zpow_add₀ two_ne_zero,
        Nat.shiftLeft_eq]
      push_cast
      ring
    rw [split, Real.sqrt_mul (Nat.cast_nonneg _), Real.sqrt_sq (two_zpow_pos target).le,
      mul_div_cancel_right₀ _ (two_zpow_pos target).ne']
  rw [root]
  refine @roundsTo_packed .positive _ _ (Real.sqrt_nonneg _)
    (stands_roundWithAccuracy (Real.sqrt_nonneg _) ?_ ?_ ?_ ?_)
  · rw [scaled]
    exact describes_root _
  · rw [scaled]
    refine Real.le_sqrt_of_sq_le ?_
    exact_mod_cast (pow_two (Nat.sqrt (m <<< count))).le.trans (Nat.sqrt_le _)
  · rw [scaled, Real.sqrt_lt' (by positivity)]
    exact_mod_cast (Nat.lt_succ_sqrt (m <<< count)).trans_eq (pow_two _).symm
  · exact root_fine positive amount (min_le_right _ _)

/-- The square root of a double that is not negative. -/
theorem sqrt_roundsTo
    (finite : x.isFinite = true)
    (nonneg : 0 ≤ real x) :
    RoundsTo (√(real x)) x.sqrt := by
  have root : x.sqrt = packed ((unpacked x).sqrt Format.binary64) := rfl
  obtain ⟨sign, r, _, _, stands, value⟩ := stands_of_isFinite finite
  rw [root, value]
  rw [value] at nonneg
  generalize unpacked x = u at stands
  cases stands with
  | zero =>
      rw [signed_zero, Real.sqrt_zero]
      exact roundsTo_zero _
  | @finite m place positive canonical =>
      cases sign with
      | negative =>
          have above : (0 : ℝ) < m * 2 ^ place :=
            mul_pos (Nat.cast_pos.mpr positive) (two_zpow_pos _)
          exact absurd nonneg (not_le.mpr (neg_lt_zero.mpr above))
      | positive => exact roundsTo_sqrt place positive

end Roots

end SceneMarkup.Decimal
