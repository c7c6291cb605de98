import SceneMarkup.Decimal.Notation
import SceneMarkup.Proofs.DoubleValues

namespace SceneMarkup.Decimal

open Float.Model UnpackedFloat

/-!
# The shortest decimal names the double

A decimal between the midpoints to the neighbours of a double is rounded to that
double.  Seventeen digits always suffice, for a unit of the last of them is less
than the gap between the midpoints; so some grid is found, and the decimal that is
found on it stands for the double and for no other.
-/

section Magnitudes

/-- The number that a magnitude stands for. -/
noncomputable def Binary.value (magnitude : Binary) : ℝ :=
  placed 2 magnitude.mantissa magnitude.exponent

/-- The number that digits stand for. -/
noncomputable def Digits.value (decimal : Digits) : ℝ :=
  placed 10 decimal.digits decimal.exponent

@[simp] theorem placed_ten
    (digits : ℕ)
    (place : ℤ) :
    placed 10 digits place = digits * 10 ^ place :=
  rfl

/-- The magnitude of a double: canonical, and narrow where a finer grid ends. -/
structure Binary.IsDouble (magnitude : Binary) : Prop where
  canonical : Canonical magnitude.mantissa magnitude.exponent
  narrow : magnitude.narrowBelow = true ↔
    magnitude.mantissa = 2 ^ 52 ∧ -1074 < magnitude.exponent

theorem toNat_unpackExponent
    (bits : BitVec 64) :
    (@unpackExponent Format.binary64 bits).toNat = bits.toNat / 2 ^ 52 % 2 ^ 11 := by
  show (BitVec.extractLsb 62 52 bits).toNat = _
  rw [BitVec.extractLsb_toNat, Nat.shiftRight_eq_div_pow]

theorem toNat_unpackMantissa
    (bits : BitVec 64) :
    (@unpackMantissa Format.binary64 bits).toNat = bits.toNat % 2 ^ 52 := by
  show (BitVec.extractLsb 51 0 bits).toNat = _
  rw [BitVec.extractLsb_toNat, Nat.shiftRight_zero]

theorem sign_unpackSign
    (bits : BitVec 64) :
    Sign.ofBitVec (@unpackSign Format.binary64 bits) =
      if bits.toNat / 2 ^ 63 == 1 then .negative else .positive := by
  have first : (@unpackSign Format.binary64 bits).toNat = bits.toNat / 2 ^ 63 := by
    show (BitVec.extractLsb 63 63 bits).toNat = _
    rw [BitVec.extractLsb_toNat, Nat.shiftRight_eq_div_pow]
    have bound := bits.isLt
    omega
  have bound := bits.isLt
  rw [← first]
  by_cases zero : @unpackSign Format.binary64 bits = 0#1
  · rw [zero]
    rfl
  · have one : (@unpackSign Format.binary64 bits).toNat = 1 := by
      have some : (@unpackSign Format.binary64 bits).toNat ≠ 0 := by
        simpa [BitVec.toNat_eq] using zero
      omega
    rw [one, Sign.ofBitVec, if_neg zero]
    rfl

/-- A fraction without a leading bit lies on the finest grid. -/
theorem isDouble_subnormal
    (fraction : BitVec 52) :
    Binary.IsDouble ⟨fraction.toNat, -1074, false⟩ := by
  have short : fraction.toNat < 2 ^ 52 := fraction.isLt
  refine ⟨⟨by simp only; omega, le_rfl, .inr rfl⟩, ?_⟩
  simp

/-- A fraction with a leading bit is full, and narrow where there is nothing but that bit. -/
theorem isDouble_normal
    {field : BitVec 11}
    (fraction : BitVec 52)
    (some : field.toNat ≠ 0) :
    Binary.IsDouble ⟨fractionCount + fraction.toNat, (field.toNat : Int) - 1075,
      fraction.toNat == 0 && field.toNat > 1⟩ := by
  have short : fraction.toNat < 2 ^ 52 := fraction.isLt
  refine ⟨⟨?_, ?_, .inl ?_⟩, ?_⟩
  · simp only [fractionCount]
    omega
  · simp only
    omega
  · simp only [fractionCount]
    omega
  · simp only [fractionCount, Bool.and_eq_true, beq_iff_eq, decide_eq_true_eq]
    omega

/-- A finite double is read as its magnitude and its sign. -/
theorem reading_of_isFinite
    {x : Float}
    (finite : x.isFinite = true) :
    ∃ negative magnitude,
      Reading.ofFloat x = .finite negative magnitude ∧ magnitude.IsDouble ∧
        magnitude.exponent ≤ 971 ∧
        real x = signed (if negative then .negative else .positive) magnitude.value := by
  obtain ⟨bits, same⟩ : ∃ bits : BitVec 64, bits = x.toBits.toBitVec := ⟨_, rfl⟩
  have read : unpacked x =
      ofFields (if bits.toNat / 2 ^ 63 == 1 then .negative else .positive)
        (@unpackExponent Format.binary64 bits) (@unpackMantissa Format.binary64 bits) := by
    rw [← sign_unpackSign, ← unpack_eq_ofFields, same]
    rfl
  have exponent := toNat_unpackExponent bits
  have mantissa := toNat_unpackMantissa bits
  generalize @unpackExponent Format.binary64 bits = field at read exponent
  generalize @unpackMantissa Format.binary64 bits = fraction at read mantissa
  have known : (unpacked x).isFinite = true := finite
  have text : Reading.ofFloat x =
      if field.toNat + 1 = exponentCount then
        if fraction.toNat = 0 then .infinite (bits.toNat / 2 ^ 63 == 1) else .notANumber
      else if field.toNat = 0 then .finite (bits.toNat / 2 ^ 63 == 1) ⟨fraction.toNat, -1074, false⟩
      else .finite (bits.toNat / 2 ^ 63 == 1)
        ⟨fractionCount + fraction.toNat, (field.toNat : Int) - 1075,
          fraction.toNat == 0 && field.toNat > 1⟩ := by
    rw [exponent, mantissa, same]
    rfl
  have regular : field ≠ -1#11 := by
    rintro rfl
    rw [read, ofFields, if_pos rfl] at known
    split at known <;> cases known
  have high : field.toNat ≠ 2047 := by simpa [BitVec.toNat_eq] using regular
  have small : field.toNat < 2048 := field.isLt
  rw [if_neg (by unfold exponentCount; omega)] at text
  rw [real, read, ofFields, if_neg regular]
  refine ⟨bits.toNat / 2 ^ 63 == 1, ?_⟩
  generalize (bits.toNat / 2 ^ 63 == 1) = negative at text
  by_cases bottom : field.toNat = 0
  · have none : field = 0#11 := BitVec.eq_of_toNat_eq bottom
    rw [if_pos bottom] at text
    refine ⟨_, text, isDouble_subnormal fraction, by norm_num, ?_⟩
    rw [if_pos none]
    split
    next zero =>
      have nothing : fraction.toNat = 0 := congrArg BitVec.toNat zero
      rw [Binary.value, placed_two, nothing, Nat.cast_zero, zero_mul, signed_zero]
      rfl
    next =>
      rw [none]
      rfl
  · have some : field ≠ 0#11 := fun none => bottom (congrArg BitVec.toNat none)
    rw [if_neg bottom] at text
    refine ⟨_, text, isDouble_normal fraction bottom, by simp only; omega, ?_⟩
    rw [if_neg some]
    simp only [value, Binary.value, toNat_implicit]
    rfl

end Magnitudes

section Comparisons

variable {magnitude : Binary} {power : ℤ} {point : ℕ}

theorem pow_toNat_eq
    (base : ℝ)
    (some : base ≠ 0)
    (power : ℤ) :
    base ^ power.toNat = base ^ power * base ^ (-power).toNat := by
  rw [← zpow_natCast, ← zpow_natCast, ← zpow_add₀ some]
  congr 1
  omega

/-- A magnitude is scaled without error. -/
theorem scaled_spec
    (magnitude : Binary)
    (power : ℤ) :
    0 < (magnitude.scaled power).2 ∧
      ((magnitude.scaled power).1 : ℝ) =
        magnitude.value * 10 ^ power * (magnitude.scaled power).2 := by
  refine ⟨Nat.mul_pos (Nat.pow_pos two_pos) (Nat.pow_pos (by norm_num)), ?_⟩
  simp only [Binary.scaled, Binary.value, placed_two, Nat.pow_eq]
  push_cast
  rw [pow_toNat_eq 2 two_ne_zero magnitude.exponent, pow_toNat_eq 10 (by norm_num) power]
  ring

/-- How many quarters of the last place the midpoint to the next smaller double is away. -/
def Binary.quartersBelow (magnitude : Binary) : ℕ :=
  if magnitude.narrowBelow then 1 else 2

/-- A number lies between the midpoints to the neighbours, on one only if the mantissa is even. -/
structure Binary.Names (magnitude : Binary) (r : ℝ) : Prop where
  low : (magnitude.mantissa - magnitude.quartersBelow / 4) * 2 ^ magnitude.exponent ≤ r
  high : r ≤ (magnitude.mantissa + 1 / 2) * 2 ^ magnitude.exponent
  even : r = (magnitude.mantissa - magnitude.quartersBelow / 4) * 2 ^ magnitude.exponent ∨
    r = (magnitude.mantissa + 1 / 2) * 2 ^ magnitude.exponent → magnitude.mantissa % 2 = 0

/-- Both ends count if the mantissa is even, and neither does if it is odd. -/
theorem names_iff
    {r : ℝ} :
    magnitude.Names r ↔
      if magnitude.mantissa % 2 = 0 then
        (magnitude.mantissa - magnitude.quartersBelow / 4) * 2 ^ magnitude.exponent ≤ r ∧
          r ≤ (magnitude.mantissa + 1 / 2) * 2 ^ magnitude.exponent
      else
        (magnitude.mantissa - magnitude.quartersBelow / 4) * 2 ^ magnitude.exponent < r ∧
          r < (magnitude.mantissa + 1 / 2) * 2 ^ magnitude.exponent := by
  split
  next even =>
    exact ⟨fun names => ⟨names.low, names.high⟩, fun ends => ⟨ends.1, ends.2, fun _ => even⟩⟩
  next odd =>
    refine ⟨fun names => ⟨?_, ?_⟩, fun ends => ⟨ends.1.le, ends.2.le, ?_⟩⟩
    · exact names.low.lt_of_ne fun same => odd (names.even (.inl same.symm))
    · exact names.high.lt_of_ne fun same => odd (names.even (.inr same))
    · rintro (low | high)
      · exact absurd low ends.1.ne'
      · exact absurd high ends.2.ne

/-- Whether a decimal lies between the midpoints is found out in whole numbers. -/
theorem isNamedBy_iff
    (some : 0 < magnitude.mantissa) :
    magnitude.isNamedBy point power = true ↔ magnitude.Names (point * 10 ^ power) := by
  obtain ⟨quarter, fine⟩ : ∃ quarter : ℤ, quarter = magnitude.exponent - 2 := ⟨_, rfl⟩
  have unit : (2 : ℝ) ^ magnitude.exponent = 4 * 2 ^ quarter := by
    rw [fine, zpow_sub₀ two_ne_zero]
    norm_num
    ring
  -- Both sides are multiplied by the powers that make them whole.
  obtain ⟨common, product⟩ : ∃ common : ℝ,
      common = 2 ^ (-quarter).toNat * 10 ^ (-power).toNat := ⟨_, rfl⟩
  have positive : 0 < common := product ▸ by positivity
  have decimal : ((point * Nat.pow 10 power.toNat * Nat.pow 2 (-quarter).toNat : ℕ) : ℝ) =
      point * 10 ^ power * common := by
    simp only [Nat.pow_eq]
    push_cast
    rw [pow_toNat_eq 10 (by norm_num) power, product]
    ring
  have binary : ∀ n : ℕ,
      ((n * (Nat.pow 2 quarter.toNat * Nat.pow 10 (-power).toNat) : ℕ) : ℝ) =
        n / 4 * 2 ^ magnitude.exponent * common := by
    intro n
    simp only [Nat.pow_eq]
    push_cast
    rw [pow_toNat_eq 2 two_ne_zero quarter, product, unit]
    ring
  have least : magnitude.quartersBelow ≤ 4 * magnitude.mantissa := by
    unfold Binary.quartersBelow
    split_ifs <;> omega
  have low : (((4 * magnitude.mantissa - magnitude.quartersBelow) *
      (Nat.pow 2 quarter.toNat * Nat.pow 10 (-power).toNat) : ℕ) : ℝ) =
        (magnitude.mantissa - magnitude.quartersBelow / 4) * 2 ^ magnitude.exponent * common := by
    rw [binary, Nat.cast_sub least]
    push_cast
    ring
  have high : (((4 * magnitude.mantissa + 2) *
      (Nat.pow 2 quarter.toNat * Nat.pow 10 (-power).toNat) : ℕ) : ℝ) =
        (magnitude.mantissa + 1 / 2) * 2 ^ magnitude.exponent * common := by
    rw [binary]
    push_cast
    ring
  have le : ∀ {a b : ℕ} {r s : ℝ}, (a : ℝ) = r * common → (b : ℝ) = s * common →
      (a ≤ b ↔ r ≤ s) := by
    intro a b r s first second
    rw [← Nat.cast_le (α := ℝ), first, second, mul_le_mul_iff_of_pos_right positive]
  have lt : ∀ {a b : ℕ} {r s : ℝ}, (a : ℝ) = r * common → (b : ℝ) = s * common →
      (a < b ↔ r < s) := by
    intro a b r s first second
    rw [← Nat.cast_lt (α := ℝ), first, second, mul_lt_mul_iff_of_pos_right positive]
  show (if magnitude.mantissa % 2 = 0 then _ else _) = true ↔ _
  rw [names_iff]
  simp only [← fine]
  by_cases even : magnitude.mantissa % 2 = 0
  · rw [if_pos even, if_pos even, Bool.and_eq_true, decide_eq_true_iff, decide_eq_true_iff]
    exact and_congr (le low decimal) (le decimal high)
  · rw [if_neg even, if_neg even, Bool.and_eq_true, decide_eq_true_iff, decide_eq_true_iff]
    exact and_congr (lt low decimal) (lt decimal high)

/-- Below the beginning of its grid the midpoint belongs to the next finer one. -/
theorem nearest_of_narrow
    {r : ℝ}
    {place : ℤ}
    (coarse : -1074 < place)
    (low : (2 ^ 52 - 1 / 4) * 2 ^ place ≤ r)
    (high : r < 2 ^ 52 * 2 ^ place) :
    nearest r = 2 ^ 52 * 2 ^ place := by
  have unit := two_zpow_pos place
  have half : (2 : ℝ) ^ (place - 1) = 2 ^ place / 2 := zpow_sub_one₀ two_ne_zero place
  have start : (2 : ℝ) ^ (place + 52) = 2 ^ 52 * 2 ^ place := by
    rw [add_comm, zpow_add₀ two_ne_zero]
    norm_cast
  have positive : 0 < r := by nlinarith
  have point : ((2 ^ 53 : ℤ) : ℝ) * 2 ^ (place - 1) = 2 ^ 52 * 2 ^ place := by
    rw [half]
    push_cast
    ring
  rw [← point]
  refine nearest_eq (by omega) ?_ (.inr ?_) ?_ (fun _ => ⟨2 ^ 52, by norm_num⟩)
  · rw [abs_of_pos positive, show place - 1 + 53 = place + 52 by ring, start]
    exact high
  · rw [abs_of_pos positive, show place - 1 + 52 = place + 52 - 1 by ring,
      zpow_sub_one₀ two_ne_zero, start]
    nlinarith
  · rw [point, half, abs_le]
    exact ⟨by linarith, by linarith⟩

/-- Beyond a narrow beginning the midpoint below is half a step away as well. -/
theorem half_of_names
    {r : ℝ}
    (double : magnitude.IsDouble)
    (names : magnitude.Names r)
    (own : magnitude.narrowBelow = true → magnitude.mantissa * 2 ^ magnitude.exponent ≤ r) :
    (magnitude.mantissa - 1 / 2) * 2 ^ magnitude.exponent ≤ r ∧
      (r = (magnitude.mantissa - 1 / 2) * 2 ^ magnitude.exponent → magnitude.mantissa % 2 = 0) ∧
        (magnitude.mantissa = 2 ^ 52 → -1074 < magnitude.exponent →
          magnitude.mantissa * 2 ^ magnitude.exponent ≤ r) := by
  have unit := two_zpow_pos magnitude.exponent
  have narrow := double.narrow
  obtain ⟨low, _, even⟩ := names
  unfold Binary.quartersBelow at low even
  cases finer : magnitude.narrowBelow with
  | true =>
      have above := own finer
      exact ⟨by linarith, fun same => by linarith, fun _ _ => above⟩
  | false =>
      have two : (((if magnitude.narrowBelow then 1 else 2 : ℕ) : ℕ) : ℝ) / 4 = 1 / 2 := by
        rw [finer]
        norm_num
      rw [two] at low even
      refine ⟨low, fun same => even (.inl same), fun power coarse => ?_⟩
      have wide := narrow.mpr ⟨power, coarse⟩
      rw [finer] at wide
      cases wide

/-- What names a double is rounded to it. -/
theorem nearest_of_names
    {r : ℝ}
    (double : magnitude.IsDouble)
    (some : 0 < magnitude.mantissa)
    (names : magnitude.Names r) :
    nearest r = magnitude.value := by
  by_cases under : magnitude.narrowBelow = true ∧
      r < magnitude.mantissa * 2 ^ magnitude.exponent
  · obtain ⟨finer, less⟩ := under
    obtain ⟨power, coarse⟩ := double.narrow.mp finer
    have low := names.low
    rw [Binary.quartersBelow, if_pos finer] at low
    rw [Binary.value, placed_two]
    rw [power] at low less ⊢
    simp only [Nat.cast_pow, Nat.cast_ofNat, Nat.cast_one] at low less ⊢
    exact nearest_of_narrow coarse low less
  -- Otherwise the midpoints are those of the double's own grid.
  obtain ⟨near, tieLow, start⟩ := half_of_names double names fun finer =>
    not_lt.mp fun less => under ⟨finer, less⟩
  obtain ⟨⟨short, finest, full⟩, _⟩ := double
  obtain ⟨_, high, even⟩ := names
  obtain ⟨m, place, finer⟩ := magnitude
  simp only at some short finest full near tieLow start high even
  have unit := two_zpow_pos place
  have least : (1 : ℝ) ≤ m := by exact_mod_cast some
  have shortReal : (m : ℝ) + 1 ≤ 2 ^ 53 := by exact_mod_cast short
  have nonneg : 0 ≤ r := (by positivity : (0 : ℝ) ≤ 1 / 2 * 2 ^ place).trans
    ((mul_le_mul_of_nonneg_right (by linarith) unit.le).trans near)
  show nearest r = m * 2 ^ place
  rw [← Int.cast_natCast (R := ℝ) m]
  refine nearest_eq finest ?_ ?_ ?_ ?_
  · rw [abs_of_nonneg nonneg, add_comm, zpow_add₀ two_ne_zero]
    refine high.trans_lt (mul_lt_mul_of_pos_right ?_ unit)
    norm_num at shortReal ⊢
    linarith
  · rcases finest.eq_or_lt with bottom | coarse
    · exact .inl bottom.symm
    · right
      rw [abs_of_nonneg nonneg, add_comm, zpow_add₀ two_ne_zero]
      rcases (full.resolve_right coarse.ne').eq_or_lt with power | more
      · refine le_trans ?_ (start power.symm coarse)
        rw [← power]
        norm_num
      · have moreReal : (2 : ℝ) ^ 52 + 1 ≤ m := by exact_mod_cast more
        refine le_trans (mul_le_mul_of_nonneg_right ?_ unit.le) near
        exact (by linarith : (2 : ℝ) ^ 52 ≤ m - 1 / 2)
  · rw [Int.cast_natCast, abs_le]
    exact ⟨by linarith, by linarith⟩
  · rw [Int.cast_natCast]
    intro tie
    have parity : m % 2 = 0 := by
      rcases (abs_eq (by positivity)).mp tie with up | down
      · exact even (.inr (by linarith))
      · exact tieLow (by linarith)
    exact_mod_cast Nat.even_iff.mpr parity

/-- What is closer to a double than the nearer midpoint names it. -/
theorem names_of_close
    {r : ℝ}
    (close : |r - magnitude.value| < magnitude.quartersBelow / 4 * 2 ^ magnitude.exponent) :
    magnitude.Names r := by
  obtain ⟨low, high⟩ := abs_lt.mp close
  have unit := two_zpow_pos magnitude.exponent
  have quarters : (magnitude.quartersBelow : ℝ) ≤ 2 := by
    unfold Binary.quartersBelow
    split_ifs <;> norm_num
  have above : (magnitude.mantissa - magnitude.quartersBelow / 4) * 2 ^ magnitude.exponent < r := by
    rw [Binary.value, placed_two] at low
    linarith
  have below : r < (magnitude.mantissa + 1 / 2) * 2 ^ magnitude.exponent := by
    rw [Binary.value, placed_two] at high
    nlinarith
  refine ⟨above.le, below.le, ?_⟩
  rintro (low | high)
  · exact absurd low above.ne'
  · exact absurd high below.ne

end Comparisons

section Search

variable {magnitude : Binary} {tie : Tie} {power : ℤ} {point : ℕ}

/-- A power of ten whose logarithm is estimated from below is not above the power of two. -/
theorem ten_zpow_le_two_zpow
    {tens bits : ℤ}
    (below : tens * 100000 ≤ (bits - 1) * 30103)
    (small : bits ≤ 100001) :
    (10 : ℝ) ^ tens ≤ 2 ^ bits := by
  have upper : (10 : ℝ) ^ (30103 : ℤ) ≤ 2 ^ (100001 : ℤ) := by
    have natural : 10 ^ 30103 ≤ 2 ^ 100001 := by decide +kernel
    exact_mod_cast natural
  have lower : (2 : ℝ) ^ (100000 : ℤ) ≤ 10 ^ (30103 : ℤ) := by
    have natural : 2 ^ 100000 ≤ 10 ^ 30103 := by decide +kernel
    exact_mod_cast natural
  -- Both sides are compared after they are raised to the power that makes the estimate whole.
  refine le_of_pow_le_pow_left₀ (n := 100000) (by norm_num) (two_zpow_pos bits).le ?_
  rw [← zpow_natCast, ← zpow_natCast, ← zpow_mul, ← zpow_mul]
  push_cast
  refine (zpow_le_zpow_right₀ (by norm_num) below).trans ?_
  rw [mul_comm (bits - 1), zpow_mul]
  rcases le_or_gt 1 bits with whole | fraction
  · obtain ⟨count, same⟩ := Int.eq_ofNat_of_zero_le (a := bits - 1) (by omega)
    rw [same]
    calc ((10 : ℝ) ^ (30103 : ℤ)) ^ (count : ℤ) ≤ (2 ^ (100001 : ℤ)) ^ (count : ℤ) := by
          rw [zpow_natCast, zpow_natCast]
          exact pow_le_pow_left₀ (by positivity) upper count
      _ = 2 ^ (100001 * (count : ℤ)) := (zpow_mul 2 100001 (count : ℤ)).symm
      _ ≤ 2 ^ (bits * 100000) := zpow_le_zpow_right₀ one_le_two (by omega)
  · obtain ⟨count, same⟩ := Int.eq_ofNat_of_zero_le (a := 1 - bits) (by omega)
    rw [show bits - 1 = -(count : ℤ) by omega, zpow_neg]
    calc (((10 : ℝ) ^ (30103 : ℤ)) ^ (count : ℤ))⁻¹ ≤ ((2 ^ (100000 : ℤ)) ^ (count : ℤ))⁻¹ := by
          rw [zpow_natCast, zpow_natCast]
          exact inv_anti₀ (by positivity) (pow_le_pow_left₀ (two_zpow_pos _).le lower count)
      _ = 2 ^ (-(100000 * (count : ℤ))) := by rw [zpow_neg, zpow_mul]
      _ ≤ 2 ^ (bits * 100000) := zpow_le_zpow_right₀ one_le_two (by omega)

/-- The first digit does not stand above the value, nor far below the smallest double. -/
theorem leading_spec
    (double : magnitude.IsDouble)
    (fits : magnitude.exponent ≤ 971)
    (some : 0 < magnitude.mantissa) :
    (10 : ℝ) ^ magnitude.leading ≤ magnitude.value ∧ -324 ≤ magnitude.leading := by
  obtain ⟨short, finest, _⟩ := double.canonical
  obtain ⟨bits, sum⟩ : ∃ bits : ℤ, bits = (magnitude.mantissa.log2 : ℤ) + magnitude.exponent :=
    ⟨_, rfl⟩
  have low : magnitude.mantissa.log2 < 53 := (Nat.log2_lt some.ne').mpr short
  have order : (2 : ℝ) ^ bits ≤ magnitude.value := by
    rw [sum, zpow_add₀ two_ne_zero, zpow_natCast, Binary.value, placed_two]
    exact mul_le_mul_of_nonneg_right (by exact_mod_cast Nat.log2_self_le some.ne')
      (two_zpow_pos _).le
  have guess : magnitude.leadingGuess = (bits * 30103 - 30103) / 100000 := by
    rw [Binary.leadingGuess, sum, Int.fdiv_eq_ediv_of_nonneg _ (by norm_num)]
  have least : -324 ≤ magnitude.leadingGuess := by omega
  have below : (10 : ℝ) ^ magnitude.leadingGuess ≤ magnitude.value :=
    (ten_zpow_le_two_zpow (by omega) (by omega)).trans order
  have reaches : ∀ power : ℤ,
      (magnitude.scaled (-power)).2 ≤ (magnitude.scaled (-power)).1 →
        (10 : ℝ) ^ power ≤ magnitude.value := by
    intro power above
    obtain ⟨positive, fraction⟩ := scaled_spec magnitude (-power)
    have aboveReal : ((magnitude.scaled (-power)).2 : ℝ) ≤ (magnitude.scaled (-power)).1 := by
      exact_mod_cast above
    have positiveReal : (0 : ℝ) < (magnitude.scaled (-power)).2 := by exact_mod_cast positive
    rw [fraction, zpow_neg] at aboveReal
    have one := le_of_mul_le_mul_right ((one_mul _).trans_le aboveReal) positiveReal
    rwa [← div_eq_mul_inv, one_le_div (by positivity)] at one
  unfold Binary.leading
  simp only [decide_eq_true_eq]
  split_ifs with second first
  · exact ⟨reaches _ second, by omega⟩
  · exact ⟨reaches _ first, by omega⟩
  · exact ⟨below, least⟩

/-- A point that is found on a grid names the double. -/
theorem isNamedBy_of_onGrid
    (found : magnitude.onGrid tie power = some point) :
    magnitude.isNamedBy point power = true := by
  unfold Binary.onGrid at found
  simp only at found
  split at found
  next below above =>
    split at found
    next => exact Option.some.inj found ▸ below
    next => exact Option.some.inj found ▸ above
  next below _ => exact Option.some.inj found ▸ below
  next _ above => exact Option.some.inj found ▸ above
  next => cases found

/-- A unit of the seventeenth digit is less than the gap between the midpoints. -/
theorem half_unit_lt
    (double : magnitude.IsDouble)
    (leads : (10 : ℝ) ^ (power + 16) ≤ magnitude.value) :
    (10 : ℝ) ^ power / 2 < magnitude.quartersBelow / 4 * 2 ^ magnitude.exponent := by
  have unit := two_zpow_pos magnitude.exponent
  have split : (10 : ℝ) ^ (power + 16) = 10 ^ power * 10 ^ 16 := by
    rw [zpow_add₀ (by norm_num)]
    norm_cast
  rw [split, Binary.value, placed_two] at leads
  unfold Binary.quartersBelow
  split_ifs with finer
  · rw [(double.narrow.mp finer).1] at leads
    push_cast at leads ⊢
    linarith
  · have short : (magnitude.mantissa : ℝ) < 2 ^ 53 := by exact_mod_cast double.canonical.short
    have below : magnitude.mantissa * (2 : ℝ) ^ magnitude.exponent <
        2 ^ 53 * 2 ^ magnitude.exponent :=
      mul_lt_mul_of_pos_right short unit
    push_cast
    linarith

/-- A point is found on a grid if one of the two beside the value names the double. -/
theorem exists_onGrid_of_named
    (named :
      let below := (magnitude.scaled (-power)).1 / (magnitude.scaled (-power)).2
      magnitude.isNamedBy below power = true ∨ magnitude.isNamedBy (below + 1) power = true) :
    ∃ point, magnitude.onGrid tie power = some point := by
  unfold Binary.onGrid
  simp only at named ⊢
  generalize magnitude.isNamedBy (_ / _) power = lower at named ⊢
  generalize magnitude.isNamedBy (_ + 1) power = upper at named ⊢
  cases lower with
  | true =>
      cases upper with
      | true =>
          dsimp only
          split
          next => exact ⟨_, rfl⟩
          next => exact ⟨_, rfl⟩
      | false => exact ⟨_, rfl⟩
  | false =>
      obtain rfl := named.resolve_left Bool.false_ne_true
      exact ⟨_, rfl⟩

/-- With seventeen digits one of the two points beside the value is close enough. -/
theorem exists_onGrid
    (double : magnitude.IsDouble)
    (some : 0 < magnitude.mantissa)
    (leads : (10 : ℝ) ^ (power + 16) ≤ magnitude.value) :
    ∃ point, magnitude.onGrid tie power = .some point := by
  obtain ⟨positive, fraction⟩ := scaled_spec magnitude (-power)
  obtain ⟨n, below⟩ : ∃ n, n = (magnitude.scaled (-power)).1 / (magnitude.scaled (-power)).2 :=
    ⟨_, rfl⟩
  have tens : (0 : ℝ) < 10 ^ power := by positivity
  have quotient : magnitude.value / 10 ^ power =
      (magnitude.scaled (-power)).1 / (magnitude.scaled (-power)).2 := by
    rw [fraction, zpow_neg, mul_div_cancel_right₀ _ (by exact_mod_cast positive.ne'),
      div_eq_mul_inv]
  have floor : (n : ℝ) ≤ magnitude.value / 10 ^ power ∧ magnitude.value / 10 ^ power < n + 1 := by
    rw [quotient, below, ← Nat.floor_div_eq_div (K := ℝ)]
    exact ⟨Nat.floor_le (by positivity), Nat.lt_floor_add_one _⟩
  rw [le_div_iff₀ tens, div_lt_iff₀ tens] at floor
  have half := half_unit_lt double leads
  refine exists_onGrid_of_named ?_
  simp only [← below]
  rw [isNamedBy_iff some, isNamedBy_iff some]
  rcases le_total (magnitude.value - n * 10 ^ power) (10 ^ power / 2) with near | far
  · refine .inl (names_of_close ?_)
    rw [abs_sub_comm, abs_of_nonneg (by linarith)]
    linarith
  · refine .inr (names_of_close ?_)
    push_cast
    rw [abs_of_nonneg (by linarith)]
    linarith

/-- Zeros at the end are moved into the exponent. -/
theorem normal_spec
    (digits : ℕ)
    (exponent : ℤ) :
    (Digits.normal digits exponent).value = digits * 10 ^ exponent ∧
      (digits ≠ 0 → exponent ≤ (Digits.normal digits exponent).exponent) := by
  fun_induction Digits.normal digits exponent with
  | case1 exponent => simp [Digits.value]
  | case2 digits exponent some zero ih =>
      have whole : (digits : ℝ) = (digits / 10 : ℕ) * 10 := by
        have natural : digits = digits / 10 * 10 := by omega
        exact_mod_cast natural
      refine ⟨?_, fun _ => ?_⟩
      · rw [ih.1, whole, zpow_add_one₀ (by norm_num)]
        ring
      · exact (Int.le_add_one le_rfl).trans (ih.2 (by omega))
  | case3 digits exponent some _ => exact ⟨rfl, fun _ => le_rfl⟩

/-- The shortest decimal is rounded to the double, and reaches no more than 340 places. -/
theorem shortest_spec
    (double : magnitude.IsDouble)
    (fits : magnitude.exponent ≤ 971)
    (some : 0 < magnitude.mantissa)
    (tie : Tie) :
    nearest (magnitude.shortest tie).value = magnitude.value ∧
      -340 ≤ (magnitude.shortest tie).exponent := by
  obtain ⟨leads, least⟩ := leading_spec double fits some
  have positive : 0 < magnitude.value := mul_pos (Nat.cast_pos.mpr some) (two_zpow_pos _)
  unfold Binary.shortest
  simp only [if_neg some.ne']
  split
  next result _ found =>
    obtain ⟨grid, listed, onGrid⟩ := List.exists_of_findSome?_eq_some found
    obtain ⟨point, known, same⟩ := Option.map_eq_some_iff.mp onGrid
    obtain ⟨rfl, rfl⟩ := Prod.mk.inj same
    obtain ⟨extra, small, rfl⟩ := List.mem_map.mp listed
    have named := nearest_of_names double some
      ((isNamedBy_iff some).mp (isNamedBy_of_onGrid known))
    obtain ⟨value, exponent⟩ := normal_spec point (magnitude.leading - extra)
    rw [value]
    refine ⟨named, ?_⟩
    have digits : point ≠ 0 := by
      rintro rfl
      rw [Nat.cast_zero, zero_mul, nearest_zero] at named
      exact positive.ne named
    have close := exponent digits
    have range := List.mem_range.mp small
    omega
  next none =>
    -- The last grid is one of those tried.
    obtain ⟨point, onGrid⟩ := @exists_onGrid _ tie (magnitude.leading - 16)
      double some (by rwa [sub_add_cancel])
    have tried := List.findSome?_eq_none_iff.mp none (magnitude.leading - 16)
      (List.mem_map.mpr ⟨16, by decide, by norm_num⟩)
    rw [onGrid] at tried
    cases tried

end Search

end SceneMarkup.Decimal
