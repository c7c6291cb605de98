import SceneMarkup.Proofs.Lengths

namespace SceneMarkup.Decimal

open Float.Model UnpackedFloat

/-!
# Powers of ten

A power is multiplied together from squares, and every product is rounded.  In
whatever order that happens, a power has as many factors as its exponent says, and
rounding costs no more than one small factor for each of them.  So powers of ten are
finite up to an exponent of 308 and infinite from there on.
-/

section Products

variable {r s : ℝ} {x y : Float}

/-- What a product that is not below one gains at most when it is rounded. -/
noncomputable def gain : ℝ :=
  1025 / 1024

/-- What is left at least of a product that is not below one when it is rounded. -/
noncomputable def loss : ℝ :=
  1023 / 1024

/-- From one on rounding moves a number by a small part of it. -/
theorem abs_nearest_sub_le_of_one_le
    (one : 1 ≤ r) :
    |nearest r - r| ≤ r / 1024 := by
  have normal : (2 : ℝ) ^ (-1022 : ℤ) ≤ |r| :=
    (zpow_le_one_of_nonpos₀ one_le_two (by norm_num)).trans (one.trans (le_abs_self r))
  calc |nearest r - r| ≤ |r| * 2 ^ (-53 : ℤ) := abs_nearest_sub_le_mul normal
    _ = r * 2 ^ (-53 : ℤ) := by rw [abs_of_pos (one_pos.trans_le one)]
    _ ≤ r * 2 ^ (-10 : ℤ) := by
        refine mul_le_mul_of_nonneg_left ?_ (zero_le_one.trans one)
        exact zpow_le_zpow_right₀ one_le_two (by norm_num)
    _ = r / 1024 := by norm_num [div_eq_mul_inv]

/-- Rounding gains little. -/
theorem nearest_le_gain
    (one : 1 ≤ r) :
    nearest r ≤ gain * r := by
  have error := le_of_abs_le (abs_nearest_sub_le_of_one_le one)
  unfold gain
  linarith

/-- Rounding loses little. -/
theorem loss_le_nearest
    (one : 1 ≤ r) :
    loss * r ≤ nearest r := by
  have error := neg_le_of_abs_le (abs_nearest_sub_le_of_one_le one)
  unfold loss
  linarith

/-- What is at least one is not rounded below it. -/
theorem one_le_nearest
    (one : 1 ≤ r) :
    1 ≤ nearest r := by
  have kept := nearest_natCast (n := 1) (by norm_num)
  rw [Nat.cast_one] at kept
  exact kept ▸ nearest_mono zero_le_one one

/-- A positive number times infinity is infinity. -/
theorem mul_infinity
    (above : AtLeast r x)
    (positive : 0 < r) :
    (unpacked x).mul Format.binary64 (.infinity .positive) = .infinity .positive ∧
      UnpackedFloat.mul Format.binary64 (.infinity .positive) (unpacked x) =
        .infinity .positive := by
  rcases above with ⟨_, bound⟩ | infinite
  · have some : 0 < value (unpacked x) := positive.trans_le bound
    cases read : unpacked x with
    | finite sign m place nonzero =>
        cases sign with
        | positive => exact ⟨rfl, rfl⟩
        | negative =>
            rw [read] at some
            have least : (0 : ℝ) ≤ placed 2 m place :=
              mul_nonneg (Nat.cast_nonneg m) (two_zpow_pos place).le
            exact absurd some (not_lt.mpr (neg_nonpos.mpr least))
    | notANumber | infinity | zero =>
        rw [read] at some
        exact absurd some (lt_irrefl 0)
  · rw [infinite]
    exact ⟨rfl, rfl⟩

/-- A product is at least the rounded product of what its factors are at least. -/
theorem AtLeast.mul
    (first : AtLeast r x)
    (second : AtLeast s y)
    (positive : 0 < r)
    (positive' : 0 < s) :
    AtLeast (nearest (r * s)) (x * y) := by
  rcases first with ⟨finite, above⟩ | infinite
  · rcases second with ⟨finite', above'⟩ | infinite'
    · have order : r * s ≤ real x * real y :=
        mul_le_mul above above' positive'.le (positive.le.trans above)
      have least : 0 ≤ r * s := (mul_pos positive positive').le
      exact (atLeast_of_roundsTo (mul_roundsTo finite finite') (least.trans order)).mono
        (nearest_mono least order)
    · right
      rw [mul_eq, infinite', (mul_infinity (.inl ⟨finite, above⟩) positive).1]
      exact unpacked_packed_infinity _
  · right
    rw [mul_eq, infinite, (mul_infinity second positive').2]
    exact unpacked_packed_infinity _

/-- Neither below one nor below `r`, maybe infinite. -/
def Above (r : ℝ) (x : Float) : Prop :=
  0 ≤ r ∧ AtLeast (max r 1) x

/-- A product loses little against the product of the bounds. -/
theorem Above.mul
    (first : Above r x)
    (second : Above s y) :
    Above (loss * (r * s)) (x * y) := by
  obtain ⟨nonneg, above⟩ := first
  obtain ⟨nonneg', above'⟩ := second
  have positive : 0 < max r 1 := lt_max_of_lt_right one_pos
  have positive' : 0 < max s 1 := lt_max_of_lt_right one_pos
  have one : 1 ≤ max r 1 * max s 1 :=
    one_le_mul_of_one_le_of_one_le (le_max_right _ _) (le_max_right _ _)
  have order : r * s ≤ max r 1 * max s 1 :=
    mul_le_mul (le_max_left _ _) (le_max_left _ _) nonneg' positive.le
  have loss_pos : 0 < loss := by norm_num [loss]
  refine ⟨mul_nonneg loss_pos.le (mul_nonneg nonneg nonneg'), ?_⟩
  refine (above.mul above' positive positive').mono (max_le ?_ ?_)
  · exact (mul_le_mul_of_nonneg_left order loss_pos.le).trans (loss_le_nearest one)
  · exact one_le_nearest one

/-- Not below one, and finite and not above `r` unless `r` is beyond all finite numbers. -/
structure Within (r : ℝ) (x : Float) : Prop where
  one_le : 1 ≤ r
  inside : r < 2 ^ (1024 : ℤ) → x.isFinite = true ∧ 1 ≤ real x ∧ real x ≤ r

/-- A product gains little on the product of the bounds. -/
theorem Within.mul
    (first : Within r x)
    (second : Within s y) :
    Within (gain * (r * s)) (x * y) := by
  obtain ⟨one, inside⟩ := first
  obtain ⟨one', inside'⟩ := second
  have gains : 1 ≤ gain := by norm_num [gain]
  have product : r * s ≤ gain * (r * s) :=
    le_mul_of_one_le_left (by positivity) gains
  refine ⟨(one_le_mul_of_one_le_of_one_le one one').trans product, fun small => ?_⟩
  obtain ⟨finite, least, most⟩ :=
    inside (((le_mul_of_one_le_right (by positivity) one').trans product).trans_lt small)
  obtain ⟨finite', least', most'⟩ :=
    inside' (((le_mul_of_one_le_left (by positivity) one).trans product).trans_lt small)
  have unit : 1 ≤ real x * real y := one_le_mul_of_one_le_of_one_le least least'
  have above : nearest (real x * real y) ≤ gain * (r * s) := by
    refine (nearest_le_gain unit).trans (mul_le_mul_of_nonneg_left ?_ (zero_le_one.trans gains))
    exact mul_le_mul most most' (zero_le_one.trans least') (zero_le_one.trans one)
  have below : 1 ≤ nearest (real x * real y) := one_le_nearest unit
  obtain ⟨finiteProduct, value⟩ := (mul_roundsTo finite finite').finite (by
    rw [abs_of_pos (one_pos.trans_le below)]
    exact above.trans_lt small)
  rw [value]
  exact ⟨finiteProduct, below, above⟩

end Products

section Loops

/-- If a product of bounded numbers is bounded by the product of the bounds up to a factor, a power
is bounded by the power of the bound and as many of these factors. -/
theorem powerLoop_bounded
    {bounded : ℝ → Float → Prop}
    {change : ℝ}
    (times :
      ∀ {r s x y}, bounded r x → bounded s y → bounded (change * (r * s)) (x * y))
    {r s : ℝ}
    {base product : Float}
    (n : ℕ)
    (root : bounded r base)
    (start : bounded s product) :
    bounded (s * (change * r) ^ n) (powerLoop base product n) := by
  induction n using Nat.strong_induction_on generalizing r s base product with
  | _ n ih =>
      have multiplied :
          bounded (s * (change * r) ^ (n % 2)) (if n % 2 = 1 then product * base else product) := by
        rcases Nat.mod_two_eq_zero_or_one n with even | odd
        · rw [even, pow_zero, mul_one]
          exact start
        · rw [odd, pow_one, mul_left_comm]
          exact times start root
      rw [powerLoop]
      split
      next last =>
        have same : n % 2 = n := by omega
        rw [same] at multiplied ⊢
        exact multiplied
      next =>
        have squared := ih (n / 2) (by omega) (times root root) multiplied
        have exponents :
            s * (change * r) ^ n =
              s * (change * r) ^ (n % 2) * (change * (change * (r * r))) ^ (n / 2) := by
          calc s * (change * r) ^ n
              = s * (change * r) ^ (n % 2 + 2 * (n / 2)) := by rw [Nat.mod_add_div]
            _ = s * (change * r) ^ (n % 2) * ((change * r) ^ 2) ^ (n / 2) := by
                rw [pow_add, pow_mul, mul_assoc]
            _ = s * (change * r) ^ (n % 2) * (change * (change * (r * r))) ^ (n / 2) := by
                ring_nf
        rwa [exponents]

theorem real_ten :
    (10.0 : Float).isFinite = true ∧ real 10.0 = 10 := by
  have fraction := @real_of_isFraction 10.0 10 1 one_pos (by decide)
  exact ⟨fraction.1, fraction.2.trans (by norm_num)⟩

/-- Powers of ten are finite up to an exponent of 308. -/
theorem real_power_of_le
    {n : ℕ}
    (small : n ≤ 308) :
    (powerLoop 10.0 1.0 n).isFinite = true ∧
      1 ≤ real (powerLoop 10.0 1.0 n) ∧ real (powerLoop 10.0 1.0 n) ≤ (gain * 10) ^ n := by
  have root : Within 10 10.0 :=
    ⟨by norm_num, fun _ => ⟨real_ten.1, by rw [real_ten.2]; norm_num, real_ten.2.le⟩⟩
  have start : Within 1 1.0 :=
    ⟨le_rfl, fun _ => ⟨real_one.1, real_one.2.ge, real_one.2.le⟩⟩
  obtain ⟨_, inside⟩ := powerLoop_bounded Within.mul n root start
  rw [one_mul] at inside
  refine inside ?_
  have quarter : (gain * 10) ^ 77 < 2 ^ 256 := by norm_num [gain]
  calc (gain * 10) ^ n ≤ (gain * 10) ^ (77 * 4) := pow_le_pow_right₀ (by norm_num [gain]) small
    _ = ((gain * 10) ^ 77) ^ 4 := pow_mul _ _ _
    _ < (2 ^ 256) ^ 4 := pow_lt_pow_left₀ quarter (by norm_num [gain]) (by norm_num)
    _ = 2 ^ (1024 : ℤ) := (pow_mul _ _ _).symm

/-- Powers of ten are infinite from an exponent of 309 on. -/
theorem unpacked_power_of_gt
    {n : ℕ}
    (large : 308 < n) :
    unpacked (powerLoop 10.0 1.0 n) = .infinity .positive := by
  have root : Above 10 10.0 :=
    ⟨by norm_num, .inl ⟨real_ten.1, by rw [real_ten.2]; norm_num⟩⟩
  have start : Above 1 1.0 :=
    ⟨zero_le_one, .inl ⟨real_one.1, by rw [real_one.2, max_self]⟩⟩
  obtain ⟨_, ⟨finite, above⟩ | infinite⟩ := powerLoop_bounded Above.mul n root start
  · rw [one_mul] at above
    have beyond : (2 : ℝ) ^ (1024 : ℤ) ≤ (loss * 10) ^ n := by
      have third : 2 ^ 171 * 2 ^ 171 ≤ (loss * 10) ^ 103 := by norm_num [loss]
      calc (2 : ℝ) ^ (1024 : ℤ) ≤ 2 ^ (1026 : ℤ) := zpow_le_zpow_right₀ one_le_two (by norm_num)
        _ = (2 ^ 171 * 2 ^ 171) ^ 3 := by rw [← pow_add, ← pow_mul, ← zpow_natCast]; rfl
        _ ≤ ((loss * 10) ^ 103) ^ 3 := pow_le_pow_left₀ (by positivity) third 3
        _ = (loss * 10) ^ (103 * 3) := (pow_mul _ _ _).symm
        _ ≤ (loss * 10) ^ n := pow_le_pow_right₀ (by norm_num [loss]) large
    have bound : real (powerLoop 10.0 1.0 n) < 2 ^ (1024 : ℤ) :=
      (le_abs_self _).trans_lt (abs_real_lt finite)
    exact absurd (beyond.trans ((le_max_left _ _).trans above)) (not_le.mpr bound)
  · exact infinite

end Loops

section Factors

variable {precision : UInt32}

/-- Up to 308 places before or behind the point the power of ten is a finite number. -/
theorem real_scaleFactor_of_le
    (inside : (places precision).natAbs ≤ 308) :
    (scaleFactor precision).isFinite = true ∧ 0 < real (scaleFactor precision) ∧
      real (scaleFactor precision) ≤ (gain * 10) ^ (places precision).toNat := by
  obtain ⟨finite, least, most⟩ := real_power_of_le inside
  have positive := one_pos.trans_le least
  unfold scaleFactor
  simp only
  split
  next negative =>
    have none : (places precision).toNat = 0 := Int.toNat_of_nonpos negative.le
    rw [none, pow_zero]
    generalize powerLoop 10.0 1.0 (places precision).natAbs = power at finite least positive
    have tiny : (2 : ℝ) ^ (-1024 : ℤ) ≤ 1 / real power := by
      rw [zpow_neg, ← one_div]
      exact one_div_le_one_div_of_le positive ((le_abs_self _).trans (abs_real_lt finite).le)
    have above : (2 : ℝ) ^ (-1024 : ℤ) ≤ nearest (1 / real power) := by
      rw [← @nearest_two_zpow (-1024) (by norm_num)]
      exact nearest_mono (two_zpow_pos _).le tiny
    have below : nearest (1 / real power) ≤ 2 ^ (0 : ℤ) := by
      refine nearest_le_two_zpow (one_div_pos.mpr positive).le (by norm_num) ?_
      rw [zpow_zero]
      exact div_le_one_of_le₀ least positive.le
    have some : 0 < nearest (1 / real power) := (two_zpow_pos _).trans_le above
    have quotient := div_roundsTo real_one.1 finite positive.ne'
    rw [real_one.2] at quotient
    obtain ⟨finiteQuotient, value⟩ := quotient.finite (by
      rw [abs_of_pos some]
      exact below.trans_lt (zpow_lt_zpow_right₀ one_lt_two (by norm_num)))
    rw [zpow_zero] at below
    rw [value]
    exact ⟨finiteQuotient, some, below⟩
  next above =>
    have same : (places precision).natAbs = (places precision).toNat := by omega
    rw [← same]
    exact ⟨finite, positive, most⟩

/-- Beyond 308 places the power of ten is infinite or zero. -/
theorem unpacked_scaleFactor_of_gt
    (outside : 308 < (places precision).natAbs) :
    unpacked (scaleFactor precision) = .zero .positive ∨
      unpacked (scaleFactor precision) = .infinity .positive := by
  have infinite := unpacked_power_of_gt outside
  unfold scaleFactor
  simp only
  split
  · left
    rw [div_eq, infinite]
    rfl
  · exact .inr infinite

end Factors

end SceneMarkup.Decimal
