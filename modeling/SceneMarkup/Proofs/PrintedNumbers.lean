import SceneMarkup.Proofs.Powers
import SceneMarkup.Proofs.Readings

namespace SceneMarkup.Markup

open Decimal

/-!
# Which numbers are written as numerals

What is written for a number is a numeral exactly if the rounded number is finite.
Beyond 308 places the power of ten is infinite or zero, and nothing is left of any
number.  Within that range a number is lost only if it becomes too large when it is
scaled, or when what is left of it is scaled back.
-/

section Numerals

variable {x : Float}

/-- A decimal, with a sign or without one. -/
def IsNumeral (text : List Char) : Prop :=
  IsMagnitude text ∨ ∃ magnitude, text = '-' :: magnitude ∧ IsMagnitude magnitude

theorem readExpression?_of_isNumeral
    {text : List Char}
    (numeral : IsNumeral text) :
    ∃ y, readExpression? text = some y := by
  rcases numeral with plain | ⟨magnitude, rfl, plain⟩
  · obtain ⟨y, read⟩ := isMagnitude_iff.mp plain
    exact ⟨y, readExpression?_of_magnitude read⟩
  · obtain ⟨y, read⟩ := isMagnitude_iff.mp plain
    exact ⟨-y, readExpression?_of_negated read⟩

/-- The text of a double is a numeral exactly if the double is finite. -/
theorem isNumeral_text_iff :
    IsNumeral (plain.text x).toList ↔ x.isFinite = true := by
  constructor
  · intro numeral
    by_contra infinite
    obtain ⟨y, read⟩ := readExpression?_of_isNumeral numeral
    rw [readExpression?_text_eq_none (Bool.not_eq_true _ ▸ infinite)] at read
    cases read
  · intro finite
    obtain ⟨magnitude, y, read, ⟨text, _⟩ | ⟨text, _⟩⟩ := exists_read_text finite
    · rw [text]
      exact .inl (isMagnitude_iff.mpr ⟨y, read⟩)
    · exact .inr ⟨magnitude, text, isMagnitude_iff.mpr ⟨y, read⟩⟩

end Numerals

section Overflow

variable {x : Float} {precision : UInt32} {r factor : ℝ}

/-- A number does not become too large, neither when it is scaled by a factor nor when the whole
number that is left is scaled back. -/
structure StaysFinite (r factor : ℝ) : Prop where
  product : |nearest (r * factor)| < 2 ^ (1024 : ℤ)
  result : |rescaled r factor| < 2 ^ (1024 : ℤ)

theorem isFinite_of_infinity
    {sign : Float.Model.UnpackedFloat.Sign}
    (infinite : Decimal.unpacked x = .infinity sign) :
    x.isFinite = false := by
  show (Decimal.unpacked x).isFinite = false
  rw [infinite]
  rfl

theorem text_of_infinity
    {sign : Float.Model.UnpackedFloat.Sign}
    (infinite : Decimal.unpacked x = .infinity sign) :
    plain.text x = "inf" ∨ plain.text x = "-inf" := by
  rw [← packed_unpacked x, infinite]
  cases sign with
  | positive => exact .inl (by decide +kernel)
  | negative => exact .inr (by decide +kernel)

/-- Up to 308 places a number is rounded to a finite one, or to infinity if it becomes too large. -/
theorem roundTo_within
    (finite : x.isFinite = true)
    (inside : (places precision).natAbs ≤ 308) :
    (StaysFinite (real x) (real (scaleFactor precision)) ∧
        (roundTo x precision).isFinite = true ∧
        real (roundTo x precision) = rescaled (real x) (real (scaleFactor precision))) ∨
      (¬StaysFinite (real x) (real (scaleFactor precision)) ∧
        ∃ sign, Decimal.unpacked (roundTo x precision) = .infinity sign) := by
  obtain ⟨finiteFactor, positive, _⟩ := real_scaleFactor_of_le inside
  rcases roundTo_cases finite finiteFactor positive.ne' with
    ⟨product, finiteResult, result⟩ | ⟨large, infinite⟩
  · have bound := abs_real_lt finiteResult
    rw [result] at bound
    exact .inl ⟨⟨product, bound⟩, finiteResult, result⟩
  · refine .inr ⟨fun stays => ?_, infinite⟩
    rcases large with large | large
    · exact absurd stays.product (not_lt.mpr large)
    · exact absurd stays.result (not_lt.mpr large)

/-- Beyond 308 places nothing is left of any number. -/
theorem roundTo_beyond
    (outside : 308 < (places precision).natAbs) :
    roundTo x precision = packed .notANumber := by
  have degenerate :
      ∀ sign mantissa exponent positive,
        Decimal.unpacked (scaleFactor precision) ≠ .finite sign mantissa exponent positive := by
    intro sign mantissa exponent positive finite
    rcases unpacked_scaleFactor_of_gt outside with zero | infinite
    · cases zero.symm.trans finite
    · cases infinite.symm.trans finite
  rw [roundTo, rescaled_eq_notANumber degenerate]
  rfl

/-- What is scaled, made whole and scaled back is at most four times as large. -/
theorem abs_quotient_le
    (positive : 0 < factor) :
    |halfAway (nearest (r * factor)) / factor| ≤ 4 * |r| := by
  have product : |r * factor| = |r| * factor := by rw [abs_mul, abs_of_pos positive]
  rcases le_or_gt (2 ^ (-1022 : ℤ)) |r * factor| with normal | tiny
  · rw [abs_div, abs_of_pos positive, div_le_iff₀ positive]
    calc |(halfAway (nearest (r * factor)) : ℝ)| ≤ 2 * |nearest (r * factor)| := abs_halfAway_le _
      _ = 2 * nearest |r * factor| := by rw [abs_nearest]
      _ ≤ 2 * (2 * |r * factor|) :=
          mul_le_mul_of_nonneg_left (nearest_le_two_mul normal) zero_le_two
      _ = 4 * |r| * factor := by rw [product]; ring
  · have small : |nearest (r * factor)| < 1 / 2 := by
      rw [abs_nearest]
      calc nearest |r * factor| ≤ 2 ^ (-2 : ℤ) := by
            refine nearest_le_two_zpow (abs_nonneg _) (by norm_num) (tiny.le.trans ?_)
            exact zpow_le_zpow_right₀ one_le_two (by norm_num)
        _ < 1 / 2 := by norm_num
    rw [halfAway_eq_zero_iff.mpr small, Int.cast_zero, zero_div, abs_zero]
    positivity

/-- Numbers of ordinary size stay finite. -/
theorem staysFinite_of_le
    (inside : (places precision).natAbs ≤ 308)
    (small : |r| * 10 ^ (places precision).toNat ≤ 10 ^ 307) :
    StaysFinite r (real (scaleFactor precision)) := by
  obtain ⟨_, positive, most⟩ := real_scaleFactor_of_le inside
  have bound : (4 : ℝ) * 10 ^ 307 ≤ 2 ^ (1023 : ℤ) := by
    have natural : 4 * 10 ^ 307 ≤ 2 ^ 1023 := by decide +kernel
    exact_mod_cast natural
  have order : (2 : ℝ) ^ (1023 : ℤ) < 2 ^ (1024 : ℤ) :=
    zpow_lt_zpow_right₀ one_lt_two (by norm_num)
  have fits : ∀ {s : ℝ}, |s| ≤ 4 * 10 ^ 307 → |nearest s| < 2 ^ (1024 : ℤ) := by
    intro s less
    rw [abs_nearest]
    exact (nearest_le_two_zpow (abs_nonneg s) (by norm_num) (less.trans bound)).trans_lt order
  have gained : gain ^ (places precision).toNat ≤ 4 := by
    calc gain ^ (places precision).toNat ≤ gain ^ (154 * 2) :=
          pow_le_pow_right₀ (by norm_num [gain]) (by omega)
      _ = (gain ^ 154) ^ 2 := pow_mul _ _ _
      _ ≤ 2 ^ 2 := pow_le_pow_left₀ (by norm_num [gain]) (by norm_num [gain]) 2
      _ = 4 := by norm_num
  constructor
  · refine fits ?_
    rw [mul_pow] at most
    calc |r * real (scaleFactor precision)| = |r| * real (scaleFactor precision) := by
          rw [abs_mul, abs_of_pos positive]
      _ ≤ |r| * (4 * 10 ^ (places precision).toNat) := by
          refine mul_le_mul_of_nonneg_left (most.trans ?_) (abs_nonneg r)
          exact mul_le_mul_of_nonneg_right gained (by positivity)
      _ = 4 * (|r| * 10 ^ (places precision).toNat) := by ring
      _ ≤ 4 * 10 ^ 307 := mul_le_mul_of_nonneg_left small (by norm_num)
  · refine fits ((abs_quotient_le positive).trans (mul_le_mul_of_nonneg_left ?_ (by norm_num)))
    exact (le_mul_of_one_le_right (abs_nonneg r) (one_le_pow₀ (by norm_num))).trans small

end Overflow

/-- What is written for a finite number is a numeral exactly if the rounded number is finite.  That
is so up to 308 places, before the point or behind it, if the number does not become too large when
it is scaled and scaled back; numbers of ordinary size do not, and zero is written as zero.  What
becomes too large is written as infinity, and beyond 308 places every number as none. -/
theorem isNumeral_numberText
    {x : Float}
    (finite : x.isFinite = true)
    (precision : UInt32) :
    let inside := (places precision).natAbs ≤ 308
    let stays := StaysFinite (real x) (real (scaleFactor precision))
    (IsNumeral (numberText x precision).toList ↔ (roundTo x precision).isFinite = true) ∧
      ((roundTo x precision).isFinite = true ↔ inside ∧ stays) ∧
      (inside → |real x| * 10 ^ (places precision).toNat ≤ 10 ^ 307 → stays) ∧
      (inside → real x = 0 → numberText x precision = "0") ∧
      (inside → ¬stays → numberText x precision = "inf" ∨ numberText x precision = "-inf") ∧
      (¬inside → numberText x precision = "NaN") := by
  intro inside stays
  have beyond : ¬inside → roundTo x precision = packed .notANumber :=
    fun outside => roundTo_beyond (not_le.mp outside)
  refine ⟨isNumeral_text_iff, ⟨fun finiteResult => ?_, fun ⟨within, kept⟩ => ?_⟩,
    staysFinite_of_le, fun within zero => ?_, fun within lost => ?_, fun outside => ?_⟩
  · by_cases within : inside
    · rcases roundTo_within finite within with ⟨kept, _⟩ | ⟨_, _, infinite⟩
      · exact ⟨within, kept⟩
      · rw [isFinite_of_infinity infinite] at finiteResult
        cases finiteResult
    · rw [beyond within] at finiteResult
      cases finiteResult
  · rcases roundTo_within finite within with ⟨_, finiteResult, _⟩ | ⟨lost, _⟩
    · exact finiteResult
    · exact absurd kept lost
  · have kept : stays := staysFinite_of_le within (by
      rw [zero, abs_zero, zero_mul]
      positivity)
    rcases roundTo_within finite within with ⟨_, finiteResult, result⟩ | ⟨lost, _⟩
    · have whole := halfAway_intCast 0
      rw [Int.cast_zero] at whole
      have nothing : real (roundTo x precision) = real 0.0 := by
        rw [result, zero, rescaled, zero_mul, nearest_zero, whole, Int.cast_zero, zero_div,
          nearest_zero, real_zero.2]
      rw [numberText, roundTo_eq_zero ((beq_iff_real finiteResult real_zero.1).mpr nothing)]
      decide +kernel
    · exact absurd kept lost
  · rcases roundTo_within finite within with ⟨kept, _⟩ | ⟨_, _, infinite⟩
    · exact absurd kept lost
    · exact text_of_infinity infinite
  · rw [numberText, beyond outside]
    decide +kernel

/-- A large number is scaled to infinity by two places. -/
theorem isNumeral_numberText_large :
    (1e308 : Float).isFinite = true ∧
      numberText 1e308 2 = "inf" ∧
      ¬IsNumeral (numberText 1e308 2).toList ∧
      numberText 0.0 309 = "NaN" := by
  have finite : (1e308 : Float).isFinite = true := by decide +kernel
  refine ⟨finite, by decide +kernel, ?_, ?_⟩
  · intro numeral
    have kept := (isNumeral_numberText finite 2).1.mp numeral
    exact absurd kept (by decide +kernel)
  · obtain ⟨_, _, _, _, _, beyond⟩ := isNumeral_numberText real_zero.1 309
    exact beyond (by decide +kernel)

end SceneMarkup.Markup
