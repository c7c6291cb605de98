import SceneMarkup.Proofs.Nearest

namespace SceneMarkup.Decimal

open Float.Model UnpackedFloat

/-!
# Rounding a significand

A significand is shifted until it has as many bits as a double keeps, and two
bits remember what was shifted out: whether it began with a half, and whether
there was anything else.  They are enough to round to the nearest double.
-/

section Residues

/-- The number `q` is `rest` more than a significand and its first bit say. -/
structure Leaves (significand : ExtendedMantissa) (q rest : ℝ) : Prop where
  split : q = significand.mantissa + (if significand.roundBit then 1 / 2 else 0) + rest
  nonneg : 0 ≤ rest
  small : rest < 1 / 2
  sticky : significand.stickyBit = true ↔ 0 < rest

/-- A significand and its two bits describe the number `q`. -/
def Describes (significand : ExtendedMantissa) (q : ℝ) : Prop :=
  ∃ rest, Leaves significand q rest

variable {significand : ExtendedMantissa} {q : ℝ}

theorem describes_exact
    (m : ℕ) :
    Describes (.ofMantissaAndAccuracy m .exact) m :=
  ⟨0, by simp [ExtendedMantissa.ofMantissaAndAccuracy], le_rfl, by norm_num,
    by simp [ExtendedMantissa.ofMantissaAndAccuracy]⟩

/-- Less than a half behind the significand is remarked as such. -/
theorem describes_below
    {rest : ℝ}
    (m : ℕ)
    (some : 0 < rest)
    (small : rest < 1 / 2) :
    Describes (.ofMantissaAndAccuracy m (.inexact .lt)) (m + rest) :=
  ⟨rest, by simp [ExtendedMantissa.ofMantissaAndAccuracy], some.le, small,
    by simp [ExtendedMantissa.ofMantissaAndAccuracy, some]⟩

theorem describes_half
    (m : ℕ) :
    Describes (.ofMantissaAndAccuracy m (.inexact .eq)) (m + 1 / 2) :=
  ⟨0, by simp [ExtendedMantissa.ofMantissaAndAccuracy], le_rfl, by norm_num,
    by simp [ExtendedMantissa.ofMantissaAndAccuracy]⟩

/-- More than a half behind the significand is remarked as such. -/
theorem describes_above
    {rest : ℝ}
    (m : ℕ)
    (some : 0 < rest)
    (small : rest < 1 / 2) :
    Describes (.ofMantissaAndAccuracy m (.inexact .gt)) (m + 1 / 2 + rest) :=
  ⟨rest, by simp [ExtendedMantissa.ofMantissaAndAccuracy], some.le, small,
    by simp [ExtendedMantissa.ofMantissaAndAccuracy, some]⟩

/-- The bit that is shifted out becomes the first of the two, which fall into the second. -/
theorem Describes.shiftRightOne
    (describes : Describes significand q) :
    Describes significand.shiftRightOne (q / 2) := by
  obtain ⟨m, half, more⟩ := significand
  obtain ⟨rest, split, nonneg, small, sticky⟩ := describes
  have halved : (m : ℝ) = 2 * ((m / 2 : ℕ) : ℝ) + ((m % 2 : ℕ) : ℝ) := by
    exact_mod_cast (Nat.div_add_mod m 2).symm
  simp only at split sticky
  refine ⟨((if half then 1 / 2 else 0) + rest) / 2, ?_, ?_, ?_, ?_⟩
  · rw [split, halved]
    rcases Nat.mod_two_eq_zero_or_one m with bit | bit <;>
      simp only [ExtendedMantissa.shiftRightOne, bit] <;> norm_num <;> ring
  · split_ifs <;> linarith
  · split_ifs <;> linarith
  · cases half
    · simpa [ExtendedMantissa.shiftRightOne] using sticky
    · have positive : (0 : ℝ) < (1 / 2 + rest) / 2 := by linarith
      simpa [ExtendedMantissa.shiftRightOne] using positive

/-- Shifting a significand divides what it describes by a power of two. -/
theorem Describes.shiftRight
    (describes : Describes significand q)
    (count : ℕ) :
    Describes (significand >>> count) (q / 2 ^ count) := by
  induction count with
  | zero =>
      rw [pow_zero, div_one]
      exact describes
  | succ count ih =>
      rw [pow_succ, ← div_div]
      exact ih.shiftRightOne

/-- The two bits are enough to round. -/
theorem Describes.roundedMantissa
    (describes : Describes significand q) :
    nearestEven q = significand.roundedMantissa := by
  obtain ⟨m, half, more⟩ := significand
  obtain ⟨rest, split, nonneg, small, sticky⟩ := describes
  simp only at split sticky
  have none : more = false → rest = 0 := fun empty =>
    le_antisymm (not_lt.mp fun positive => by simp [sticky.mpr positive] at empty) nonneg
  cases half
  · -- Below the half the significand itself is nearest.
    have rounded : (ExtendedMantissa.mk m false more).roundedMantissa = m := by
      cases more <;> rfl
    have distance : |q - (m : ℤ)| = rest := by
      rw [split, if_neg Bool.false_ne_true, Int.cast_natCast, add_zero, add_sub_cancel_left,
        abs_of_nonneg nonneg]
    rw [rounded]
    exact eq_nearestEven (by linarith) fun tie => absurd tie (by linarith)
  · rw [if_pos rfl] at split
    cases more
    · -- Right at the half the even one of both neighbours is taken.
      have rounded : (ExtendedMantissa.mk m true false).roundedMantissa = m + m % 2 := rfl
      rw [none rfl, add_zero] at split
      rw [rounded, split]
      rcases Nat.mod_two_eq_zero_or_one m with even | odd
      · rw [even, add_zero]
        refine eq_nearestEven ?_ fun _ => (Int.even_coe_nat m).mpr (Nat.even_iff.mpr even)
        rw [Int.cast_natCast, add_sub_cancel_left, abs_of_pos one_half_pos]
      · rw [odd]
        refine eq_nearestEven ?_ fun _ => (Int.even_coe_nat _).mpr (Nat.odd_iff.mpr odd).add_one
        rw [Int.cast_natCast, Nat.cast_add, Nat.cast_one, abs_of_neg] <;> linarith
    · have rounded : (ExtendedMantissa.mk m true true).roundedMantissa = m + 1 := rfl
      have positive : 0 < rest := sticky.mp rfl
      have distance : |q - ((m + 1 : ℕ) : ℤ)| = 1 / 2 - rest := by
        rw [split, Int.cast_natCast, Nat.cast_add, Nat.cast_one, abs_of_nonpos] <;> linarith
      rw [rounded]
      exact eq_nearestEven (by linarith) fun tie => absurd tie (by linarith)

end Residues

section Canonical

/-- The form in which a double keeps its significand: full, or on the finest grid. -/
structure Canonical (m : ℕ) (place : ℤ) : Prop where
  short : m < 2 ^ 53
  finest : -1074 ≤ place
  full : 2 ^ 52 ≤ m ∨ place = -1074

/-- The value has the sign and the magnitude, and is kept in canonical form. -/
inductive Stands (sign : Sign) : ℝ → UnpackedFloat → Prop
  | zero : Stands sign 0 (.zero sign)
  | finite {m : ℕ} {place : ℤ} (positive : 0 < m) (canonical : Canonical m place) :
      Stands sign (m * 2 ^ place) (.finite sign m place positive)

variable {sign : Sign} {accuracy : Accuracy} {m : ℕ} {place : ℤ} {r : ℝ}

/-- The target place keeps fifty-three bits, down to the lowest place. -/
theorem targetExponent_eq
    (m : ℕ)
    (place : ℤ) :
    Format.binary64.targetExponent (totalExponent m place) =
      max ((m.log2 : ℤ) + place - 52) (-1074) := by
  show max ((m.log2 : ℤ) + 1 + place - (1 + 52 : ℕ)) (3 - 2 ^ 10 - (1 + 52 : ℕ)) = _
  congr 1
  push_cast
  ring

/-- The logarithm of a number is read off its whole part at a place. -/
theorem log_of_floor
    (some : m ≠ 0)
    (low : (m : ℝ) ≤ r / 2 ^ place)
    (high : r / 2 ^ place < m + 1) :
    Int.log 2 r = m.log2 + place := by
  have positive : 0 < r := by
    have scaled : (0 : ℝ) < r / 2 ^ place :=
      (Nat.cast_pos.mpr (Nat.pos_of_ne_zero some)).trans_le low
    exact (div_pos_iff_of_pos_right (two_zpow_pos place)).mp scaled
  have lead : (2 : ℝ) ^ m.log2 ≤ m := by exact_mod_cast Nat.log2_self_le some
  have next : (m : ℝ) + 1 ≤ 2 ^ (m.log2 + 1) := by exact_mod_cast Nat.lt_log2_self
  have floor : ((2 : ℕ) : ℝ) ^ ((m.log2 : ℤ) + place) ≤ r := by
    rw [Nat.cast_two, zpow_add₀ two_ne_zero, zpow_natCast, ← le_div_iff₀ (two_zpow_pos place)]
    exact lead.trans low
  have ceiling : r < ((2 : ℕ) : ℝ) ^ ((m.log2 : ℤ) + place + 1) := by
    have order : (m.log2 : ℤ) + place + 1 = ((m.log2 + 1 : ℕ) : ℤ) + place := by
      push_cast
      ring
    rw [Nat.cast_two, order, zpow_add₀ two_ne_zero, zpow_natCast,
      ← div_lt_iff₀ (two_zpow_pos place)]
    exact high.trans_le next
  have above := (Int.zpow_le_iff_le_log (b := 2) (by norm_num) positive).mp floor
  have below := (Int.lt_zpow_iff_log_lt (b := 2) (by norm_num) positive).mp ceiling
  omega

/-- The grid that a significand is shifted to is that of the number it describes. -/
theorem targetExponent_eq_lastPlace
    (positive : 0 < r)
    (low : (m : ℝ) ≤ r / 2 ^ place)
    (high : r / 2 ^ place < m + 1)
    (fine : place ≤ Format.binary64.targetExponent (totalExponent m place)) :
    Format.binary64.targetExponent (totalExponent m place) = lastPlace r := by
  rw [targetExponent_eq] at fine ⊢
  rw [lastPlace, abs_of_pos positive]
  rcases eq_or_ne m 0 with rfl | some
  · -- Nothing is kept of the significand: the number is below the finest grid.
    have below : r < ((2 : ℕ) : ℝ) ^ place := by
      rw [Nat.cast_zero, zero_add, div_lt_one (two_zpow_pos place)] at high
      exact_mod_cast high
    have order := (Int.lt_zpow_iff_log_lt (b := 2) (by norm_num) positive).mp below
    have flat : Nat.log2 0 = 0 := rfl
    rw [flat] at fine ⊢
    omega
  · rw [log_of_floor some low high]

/-- A significand is shifted by as much as its place is below the target. -/
theorem shiftToTargetExponent_eq
    {count : ℕ}
    (amount : (Format.binary64.targetExponent (totalExponent m place) - place).toNat = count) :
    shiftToTargetExponent Format.binary64 m place accuracy =
      (ExtendedMantissa.ofMantissaAndAccuracy m accuracy >>> count, place + count) := by
  subst amount
  rfl

/-- A whole significand of at most `2 ^ 53` on its own grid stands for itself. -/
theorem stands_shiftToTargetExponent
    (short : m ≤ 2 ^ 53)
    (finest : -1074 ≤ place)
    (full : m = 0 ∨ 2 ^ 52 ≤ m ∨ place = -1074) :
    Stands sign (m * 2 ^ place)
      (let shifted := shiftToTargetExponent Format.binary64 m place .exact
      if none : shifted.1.mantissa = 0 then .zero sign
      else .finite sign shifted.1.mantissa shifted.2 (Nat.pos_of_ne_zero none)) := by
  rcases short.eq_or_lt with top | inside
  · -- A significand that is rounded up to one bit more is shifted once.
    have amount :
        (Format.binary64.targetExponent (totalExponent m place) - place).toNat = 1 := by
      have order : (2 ^ 53 : ℕ).log2 = 53 := Nat.log2_two_pow
      rw [targetExponent_eq, top, order]
      omega
    have shifted : shiftToTargetExponent Format.binary64 m place .exact =
        (⟨2 ^ 52, false, false⟩, place + 1) := by
      rw [shiftToTargetExponent_eq amount, top]
      rfl
    have value : (m : ℝ) * 2 ^ place = ((2 ^ 52 : ℕ) : ℝ) * 2 ^ (place + 1) := by
      rw [top, zpow_add_one₀ two_ne_zero]
      push_cast
      ring
    rw [shifted, value]
    exact .finite (by norm_num) ⟨by norm_num, by omega, .inl le_rfl⟩
  · have order : m.log2 ≤ 52 := by
      rcases eq_or_ne m 0 with rfl | some
      · exact Nat.zero_le _
      · exact Nat.lt_succ_iff.mp ((Nat.log2_lt some).mpr inside)
    have amount :
        (Format.binary64.targetExponent (totalExponent m place) - place).toNat = 0 := by
      rw [targetExponent_eq]
      omega
    have shifted : shiftToTargetExponent Format.binary64 m place .exact =
        (⟨m, false, false⟩, place) := by
      rw [shiftToTargetExponent_eq amount, Nat.cast_zero, add_zero]
      rfl
    rw [shifted]
    rcases eq_or_ne m 0 with rfl | some
    · rw [Nat.cast_zero, zero_mul]
      exact .zero
    · rw [dif_neg some]
      exact .finite (Nat.pos_of_ne_zero some) ⟨inside, finest, full.resolve_left some⟩

/-- Rounding a significand that describes a number gives the nearest double. -/
theorem stands_roundWithAccuracy
    (nonneg : 0 ≤ r)
    (describes : Describes (.ofMantissaAndAccuracy m accuracy) (r / 2 ^ place))
    (low : (m : ℝ) ≤ r / 2 ^ place)
    (high : r / 2 ^ place < m + 1)
    (fine : place ≤ Format.binary64.targetExponent (totalExponent m place)) :
    Stands sign (nearest r) (roundWithAccuracy Format.binary64 sign m place accuracy) := by
  obtain ⟨count, reached⟩ := Int.le.dest fine
  have amount :
      (Format.binary64.targetExponent (totalExponent m place) - place).toNat = count := by
    omega
  have scaled : r / 2 ^ place / 2 ^ count = r / 2 ^ (place + (count : ℤ)) := by
    rw [div_div, zpow_add₀ two_ne_zero, zpow_natCast]
  have rounded := (describes.shiftRight count).roundedMantissa
  rw [scaled] at rounded
  have finest : -1074 ≤ place + (count : ℤ) := by
    rw [reached, targetExponent_eq]
    exact le_max_right _ _
  have first := @shiftToTargetExponent_eq accuracy _ _ _ amount
  unfold roundWithAccuracy
  rw [first]
  rcases nonneg.eq_or_lt with rfl | positive
  · have nothing : (ExtendedMantissa.ofMantissaAndAccuracy m accuracy >>> count).roundedMantissa =
        0 := by
      rw [zero_div, ← Int.cast_zero, nearestEven_intCast] at rounded
      exact_mod_cast rounded.symm
    have value : nearest 0 =
        ((ExtendedMantissa.ofMantissaAndAccuracy m accuracy >>> count).roundedMantissa : ℝ)
          * 2 ^ (place + (count : ℤ)) := by
      rw [nearest_zero, nothing, Nat.cast_zero, zero_mul]
    rw [value]
    exact stands_shiftToTargetExponent (nothing.le.trans (Nat.zero_le _)) finest (.inl nothing)
  · have target := targetExponent_eq_lastPlace positive low high fine
    have value : nearest r =
        ((ExtendedMantissa.ofMantissaAndAccuracy m accuracy >>> count).roundedMantissa : ℝ)
          * 2 ^ (place + (count : ℤ)) := by
      rw [nearest, ← target, ← reached, rounded, Int.cast_natCast]
    have top := nearest_le_of_lastPlace nonneg
    have bottom := le_nearest_of_lastPlace positive
    rw [← target, ← reached, add_comm, zpow_add₀ two_ne_zero, value,
      mul_le_mul_iff_left₀ (two_zpow_pos _)] at top
    rw [← target, ← reached, add_comm _ (52 : ℤ), zpow_add₀ two_ne_zero, value,
      mul_le_mul_iff_left₀ (two_zpow_pos _)] at bottom
    rw [value]
    refine stands_shiftToTargetExponent (by exact_mod_cast top) finest ?_
    rcases finest.eq_or_lt with same | coarse
    · exact .inr (.inr same.symm)
    · exact .inr (.inl (by exact_mod_cast bottom coarse))

end Canonical

end SceneMarkup.Decimal
