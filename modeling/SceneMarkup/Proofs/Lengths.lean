import SceneMarkup.Proofs.RoundedPlaces

namespace SceneMarkup.Decimal

open Float.Model UnpackedFloat

/-!
# Lengths and components

A length is the rounded root of a rounded sum of rounded squares.  It is not less
than any component, for the root of the square of a number is that number again
unless the square vanishes; and it is hardly more than the largest one.
-/

section Bounds

/-- Not negative and not below `r`, maybe infinite. -/
def AtLeast (r : ℝ) (x : Float) : Prop :=
  (x.isFinite = true ∧ r ≤ real x) ∨ unpacked x = .infinity .positive

variable {r s : ℝ} {x y : Float}

/-- The rounding of a number that is not negative is at least the nearest double. -/
theorem atLeast_of_roundsTo
    (rounds : RoundsTo s x)
    (nonneg : 0 ≤ s) :
    AtLeast (nearest s) x := by
  rcases rounds with ⟨finite, value⟩ | ⟨_, infinite⟩
  · exact .inl ⟨finite, value.ge⟩
  · rw [if_neg (not_lt.mpr nonneg)] at infinite
    exact .inr infinite

/-- A square is at least the nearest double to the square of the value, infinite or not. -/
theorem atLeast_mul_self
    (finite : x.isFinite = true) :
    AtLeast (nearest (real x * real x)) (x * x) :=
  atLeast_of_roundsTo (mul_roundsTo finite finite) (mul_self_nonneg _)

/-- What is at least a number is at least a smaller one. -/
theorem AtLeast.mono
    (above : AtLeast r x)
    (less : s ≤ r) :
    AtLeast s x :=
  above.imp_left fun bound => ⟨bound.1, less.trans bound.2⟩

/-- A sum with an infinity that is not cancelled is infinite. -/
theorem add_infinity
    {u : UnpackedFloat}
    (known : u.isFinite = true ∨ u = .infinity .positive) :
    u.add Format.binary64 (.infinity .positive) = .infinity .positive ∧
      UnpackedFloat.add Format.binary64 (.infinity .positive) u = .infinity .positive := by
  rcases known with finite | rfl
  · cases u with
    | notANumber => cases finite
    | infinity sign => cases finite
    | zero sign => exact ⟨rfl, rfl⟩
    | finite sign m place positive => exact ⟨rfl, rfl⟩
  · exact ⟨rfl, rfl⟩

/-- A sum of two numbers that are not negative is below neither of them. -/
theorem AtLeast.add
    (first : AtLeast r x)
    (second : AtLeast s y)
    (nonneg : 0 ≤ r)
    (nonneg' : 0 ≤ s) :
    AtLeast (max r s) (x + y) := by
  have sum : x + y = packed ((unpacked x).add Format.binary64 (unpacked y)) := rfl
  have finiteOrNot : ∀ {t : ℝ} {z : Float}, AtLeast t z →
      (unpacked z).isFinite = true ∨ unpacked z = .infinity .positive :=
    fun above => above.imp_left fun bound => bound.1
  rcases first with ⟨finite, above⟩ | infinite
  · rcases second with ⟨finite', above'⟩ | infinite'
    · have total : 0 ≤ real x + real y := by linarith
      have kept : real x ≤ nearest (real x + real y) := by
        have mono := nearest_mono (nonneg.trans above) (by linarith : real x ≤ real x + real y)
        rwa [nearest_real finite] at mono
      have kept' : real y ≤ nearest (real x + real y) := by
        have mono := nearest_mono (nonneg'.trans above') (by linarith : real y ≤ real x + real y)
        rwa [nearest_real finite'] at mono
      exact (atLeast_of_roundsTo (add_roundsTo finite finite') total).mono
        (max_le (above.trans kept) (above'.trans kept'))
    · right
      rw [sum, infinite', (add_infinity (.inl finite)).1]
      exact unpacked_packed_infinity _
  · right
    rw [sum, infinite, (add_infinity (finiteOrNot second)).2]
    exact unpacked_packed_infinity _

/-- A root is at least the rounded root of what the radicand is at least. -/
theorem AtLeast.sqrt
    (above : AtLeast r x)
    (nonneg : 0 ≤ r) :
    AtLeast (nearest √r) x.sqrt := by
  rcases above with ⟨finite, bound⟩ | infinite
  · have rounds := sqrt_roundsTo finite (nonneg.trans bound)
    refine (atLeast_of_roundsTo rounds (Real.sqrt_nonneg _)).mono ?_
    exact nearest_mono (Real.sqrt_nonneg _) (Real.sqrt_le_sqrt bound)
  · right
    have root : x.sqrt = packed ((unpacked x).sqrt Format.binary64) := rfl
    rw [root, infinite]
    exact unpacked_packed_infinity _

end Bounds

section Roots

variable {x : Float}

/-- The length of three components: squares, two sums and a root, each rounded. -/
noncomputable def roundedLength (x y z : ℝ) : ℝ :=
  nearest √(nearest (nearest (nearest (x * x) + nearest (y * y)) + nearest (z * z)))

/-- A length is not much more than the bound of its components. -/
theorem roundedLength_le
    {t x y z : ℝ}
    (normal : 2 ^ (-500 : ℤ) ≤ t)
    (boundX : |x| ≤ t)
    (boundY : |y| ≤ t)
    (boundZ : |z| ≤ t) :
    roundedLength x y z ≤ 9 * t := by
  have positive : 0 < t := (two_zpow_pos _).trans_le normal
  -- Each rounding doubles a bound at most.
  have step : ∀ {r : ℝ} (factor : ℝ), 0 ≤ r → r ≤ factor * t ^ 2 → 1 ≤ factor →
      nearest r ≤ 2 * (factor * t ^ 2) := by
    intro r factor nonneg less one
    refine (nearest_mono nonneg less).trans (nearest_le_two_mul ?_)
    calc (2 : ℝ) ^ (-1022 : ℤ) ≤ 2 ^ (-1000 : ℤ) := zpow_le_zpow_right₀ one_le_two (by norm_num)
      _ = (2 ^ (-500 : ℤ)) ^ 2 := by rw [pow_two, ← zpow_add₀ two_ne_zero]; norm_num
      _ ≤ t ^ 2 := by gcongr
      _ ≤ factor * t ^ 2 := le_mul_of_one_le_left (by positivity) one
  have square : ∀ {r : ℝ}, |r| ≤ t → 0 ≤ nearest (r * r) ∧ nearest (r * r) ≤ 2 * t ^ 2 := by
    intro r below
    have order : r * r ≤ 1 * t ^ 2 := by
      rw [← abs_mul_abs_self, one_mul, pow_two]
      exact mul_self_le_mul_self (abs_nonneg _) below
    have doubled := step 1 (mul_self_nonneg r) order le_rfl
    exact ⟨nearest_nonneg (mul_self_nonneg r), by rwa [one_mul] at doubled⟩
  obtain ⟨nonnegX, squareX⟩ := square boundX
  obtain ⟨nonnegY, squareY⟩ := square boundY
  obtain ⟨nonnegZ, squareZ⟩ := square boundZ
  have pair := step 4 (add_nonneg nonnegX nonnegY) (by linarith) (by norm_num)
  have sum := step 10 (add_nonneg (nearest_nonneg (add_nonneg nonnegX nonnegY)) nonnegZ)
    (by linarith) (by norm_num)
  have root : √(nearest (nearest (nearest (x * x) + nearest (y * y)) + nearest (z * z))) ≤
      4.5 * t := by
    rw [Real.sqrt_le_left (by positivity)]
    nlinarith [sq_nonneg t]
  have small : (2 : ℝ) ^ (-1022 : ℤ) ≤ 2 ^ (-500 : ℤ) :=
    zpow_le_zpow_right₀ one_le_two (by norm_num)
  calc roundedLength x y z ≤ nearest (4.5 * t) := nearest_mono (Real.sqrt_nonneg _) root
    _ ≤ 2 * (4.5 * t) := nearest_le_two_mul (by linarith)
    _ = 9 * t := by ring

section Canonical

variable {m : ℕ} {place : ℤ}

/-- Only a full significand on a coarse grid stands for a number that is not tiny. -/
theorem full_of_le
    (canonical : Canonical m place)
    (normal : 2 ^ (-500 : ℤ) ≤ (m : ℝ) * 2 ^ place) :
    -553 < place ∧ 2 ^ 52 ≤ m := by
  have large : -553 < place := by
    by_contra small
    have short : (m : ℝ) < 2 ^ 53 := by exact_mod_cast canonical.short
    have below : (m : ℝ) * 2 ^ place < 2 ^ (-500 : ℤ) := by
      calc (m : ℝ) * 2 ^ place < 2 ^ 53 * 2 ^ place :=
            mul_lt_mul_of_pos_right short (two_zpow_pos place)
        _ = 2 ^ ((53 : ℕ) + place) := by rw [zpow_add₀ two_ne_zero, zpow_natCast]
        _ ≤ 2 ^ (-500 : ℤ) := zpow_le_zpow_right₀ one_le_two (by omega)
    exact absurd normal (not_le.mpr below)
  exact ⟨large, canonical.full.resolve_right (by omega)⟩

/-- The square of a significand is rounded to half as many places, so by half a step of them. -/
theorem abs_nearest_square_sub_le
    (short : m < 2 ^ 53)
    (positive : 0 < m)
    (coarse : -1074 ≤ 53 + 2 * place) :
    |nearest ((m : ℝ) ^ 2 * 2 ^ (2 * place)) - (m : ℝ) ^ 2 * 2 ^ (2 * place)| ≤
      2 ^ 52 * 2 ^ (2 * place) := by
  have shortReal : (m : ℝ) < 2 ^ 53 := by exact_mod_cast short
  have inside : |(m : ℝ) ^ 2 * 2 ^ (2 * place)| < 2 ^ (53 + 2 * place + 53) := by
    have order : (2 : ℝ) ^ (53 + 2 * place + 53) = (2 ^ 53) ^ 2 * 2 ^ (2 * place) := by
      rw [zpow_add₀ two_ne_zero, zpow_add₀ two_ne_zero]
      ring
    rw [abs_of_nonneg (by positivity), order]
    exact mul_lt_mul_of_pos_right (by gcongr) (two_zpow_pos _)
  have grid : lastPlace ((m : ℝ) ^ 2 * 2 ^ (2 * place)) ≤ 53 + 2 * place := by
    rcases lastPlace_le coarse inside with fine | zero
    · exact fine
    · exact absurd zero (by positivity)
  refine (abs_nearest_sub_le ((m : ℝ) ^ 2 * 2 ^ (2 * place))).trans ?_
  calc (2 : ℝ) ^ (lastPlace ((m : ℝ) ^ 2 * 2 ^ (2 * place)) - 1) ≤ 2 ^ ((52 : ℕ) + 2 * place) :=
        zpow_le_zpow_right₀ one_le_two (by omega)
    _ = 2 ^ 52 * 2 ^ (2 * place) := by rw [zpow_add₀ two_ne_zero, zpow_natCast]

/-- A root is rounded to the significand whose square was rounded by so little. -/
theorem nearest_sqrt_of_near
    {near : ℝ}
    (short : m < 2 ^ 53)
    (more : 2 ^ 52 < m)
    (finest : -1074 ≤ place)
    (close : |near - (m : ℝ) ^ 2 * 2 ^ (2 * place)| ≤ 2 ^ 52 * 2 ^ (2 * place)) :
    nearest √near = m * 2 ^ place := by
  have unit := two_zpow_pos place
  have moreReal : (2 : ℝ) ^ 52 + 1 ≤ m := by exact_mod_cast more
  have shortReal : (m : ℝ) + 1 ≤ 2 ^ 53 := by exact_mod_cast short
  obtain ⟨low, high⟩ := abs_le.mp close
  have double : (2 : ℝ) ^ (2 * place) = 2 ^ place * 2 ^ place := by
    rw [two_mul, zpow_add₀ two_ne_zero]
  rw [double] at low high
  have lower : ((m : ℝ) - 1 / 2) * 2 ^ place < √near := by
    rw [Real.lt_sqrt (by nlinarith)]
    nlinarith [mul_pos unit unit]
  have upper : √near < ((m : ℝ) + 1 / 2) * 2 ^ place := by
    rw [Real.sqrt_lt' (by positivity)]
    nlinarith [mul_pos unit unit]
  have root : 0 ≤ √near := Real.sqrt_nonneg near
  have start : (2 : ℝ) ^ (place + 52) = 2 ^ 52 * 2 ^ place := by
    rw [add_comm, zpow_add₀ two_ne_zero]
    norm_cast
  have stop : (2 : ℝ) ^ (place + 53) = 2 ^ 53 * 2 ^ place := by
    rw [add_comm, zpow_add₀ two_ne_zero]
    norm_cast
  have between : |√near - (m : ℤ) * 2 ^ place| < 2 ^ place / 2 := by
    rw [Int.cast_natCast, abs_lt]
    exact ⟨by linarith, by linarith⟩
  have inside : |√near| < 2 ^ (place + 53) := by
    rw [abs_of_nonneg root, stop]
    nlinarith
  have full : 2 ^ (place + 52) ≤ |√near| := by
    rw [abs_of_nonneg root, start]
    nlinarith
  have kept := nearest_eq finest inside (.inr full) between.le
    (fun tie => absurd tie between.ne)
  rwa [Int.cast_natCast] at kept

/-- The square of a power of two is a double itself, and its root is kept. -/
theorem nearest_sqrt_of_power
    (finest : -1074 ≤ place)
    (coarse : -1074 ≤ 104 + 2 * place) :
    nearest √(nearest ((2 ^ 52 * 2 ^ place) * (2 ^ 52 * 2 ^ place))) = 2 ^ 52 * 2 ^ place := by
  have square : ((2 : ℝ) ^ 52 * 2 ^ place) * (2 ^ 52 * 2 ^ place) = 2 ^ (104 + 2 * place) := by
    rw [zpow_add₀ two_ne_zero, two_mul, zpow_add₀ two_ne_zero]
    norm_num
    ring
  have kept := @nearest_of_grid (2 ^ 52) place finest (by norm_num)
  rw [Int.cast_pow, Int.cast_ofNat] at kept
  rw [square, nearest_two_zpow coarse, ← square, Real.sqrt_mul_self (by positivity), kept]

end Canonical

/-- The root of the square of a number is the magnitude of the number, if the square is normal. -/
theorem nearest_sqrt_nearest_square
    (finite : x.isFinite = true)
    (normal : 2 ^ (-500 : ℤ) ≤ |real x|) :
    nearest √(nearest (real x * real x)) = |real x| := by
  obtain ⟨sign, r, above, _, stands, value⟩ := stands_of_isFinite finite
  have magnitude : |real x| = r := by rw [value, abs_signed above]
  have square : real x * real x = r * r := by rw [← abs_mul_abs_self, magnitude]
  rw [square, magnitude]
  rw [magnitude] at normal
  generalize unpacked x = u at stands
  cases stands with
  | zero => exact absurd normal (not_le.mpr (two_zpow_pos _))
  | @finite m place positive canonical =>
      obtain ⟨large, full⟩ := full_of_le canonical normal
      rcases full.eq_or_lt with rfl | more
      · rw [Nat.cast_pow, Nat.cast_ofNat]
        exact nearest_sqrt_of_power canonical.finest (by omega)
      · -- Any other significand is further from its neighbours' midpoints than the error reaches.
        have squared : (m : ℝ) * 2 ^ place * (m * 2 ^ place) = (m : ℝ) ^ 2 * 2 ^ (2 * place) := by
          rw [two_mul, zpow_add₀ two_ne_zero]
          ring
        rw [squared]
        exact nearest_sqrt_of_near canonical.short more canonical.finest
          (abs_nearest_square_sub_le canonical.short positive (by omega))

end Roots

section Scaling

variable {r : ℝ} {places : ℕ}

/-- Scaling does not care for the sign. -/
theorem scaled_abs
    (r : ℝ)
    (places : ℕ) :
    scaled |r| places = |scaled r places| := by
  rw [scaled, scaled, abs_nearest, abs_mul, abs_of_pos (by positivity : (0 : ℝ) < 10 ^ places)]

/-- Scaling keeps the order. -/
theorem scaled_mono
    {s : ℝ}
    (nonneg : 0 ≤ r)
    (less : r ≤ s) :
    scaled r places ≤ scaled s places :=
  nearest_mono (by positivity) (mul_le_mul_of_nonneg_right less (by positivity))

/-- What is less than a half when it is scaled is so before it is rounded. -/
theorem lt_of_scaled_lt
    (small : |scaled r places| < 1 / 2) :
    |r| * 10 ^ places < 1 / 2 := by
  have half : nearest (1 / 2) = 1 / 2 := by
    have kept := @nearest_two_zpow (-1) (by norm_num)
    norm_num at kept ⊢
    exact kept
  by_contra large
  have above := nearest_mono (by norm_num) (not_lt.mp large)
  rw [half, ← scaled, scaled_abs] at above
  exact absurd small (not_lt.mpr above)

/-- What is tiny is less than a half at all places. -/
theorem scaled_lt_of_tiny
    (within : places ≤ 22)
    (tiny : |r| ≤ 2 ^ (-500 : ℤ)) :
    |scaled r places| < 1 / 2 := by
  have power : (10 : ℝ) ^ places ≤ 2 ^ (74 : ℤ) := by
    calc (10 : ℝ) ^ places ≤ 10 ^ 22 := pow_le_pow_right₀ (by norm_num) within
      _ ≤ 2 ^ (74 : ℤ) := by norm_num
  have bound : |r| * 10 ^ places ≤ 2 ^ (-426 : ℤ) := by
    calc |r| * 10 ^ places ≤ 2 ^ (-500 : ℤ) * 2 ^ (74 : ℤ) :=
          mul_le_mul tiny power (by positivity) (two_zpow_pos _).le
      _ = 2 ^ (-426 : ℤ) := by rw [← zpow_add₀ two_ne_zero]; norm_num
  rw [← scaled_abs]
  calc scaled |r| places ≤ 2 ^ (-426 : ℤ) :=
        nearest_le_two_zpow (by positivity) (by norm_num) bound
    _ < 2 ^ (-1 : ℤ) := zpow_lt_zpow_right₀ one_lt_two (by norm_num)
    _ = 1 / 2 := by norm_num

end Scaling

end SceneMarkup.Decimal

namespace SceneMarkup.Scene

open Decimal

namespace Vector

/-- The components in order. -/
def components (v : Vector) : List Float :=
  [v.x, v.y, v.z]

/-- No component is infinite or no number. -/
def IsFinite (v : Vector) : Prop :=
  ∀ x ∈ v.components, x.isFinite = true

/-- The components rounded to a number of places. -/
def rounded (v : Vector) (precision : UInt32) : Vector :=
  v.map fun x => roundTo x precision

/-- Every component is rounded to zero. -/
def Vanishes (v : Vector) (precision : UInt32) : Prop :=
  (v.rounded precision).agrees .zero = true

/-- The length is rounded to zero. -/
def IsShort (v : Vector) (precision : UInt32) : Prop :=
  Float.beq (roundTo v.length precision) 0.0 = true

/-- At most one component differs from zero. -/
def OnAxis (v : Vector) : Prop :=
  v.agrees ⟨v.x, 0.0, 0.0⟩ = true ∨ v.agrees ⟨0.0, v.y, 0.0⟩ = true ∨
    v.agrees ⟨0.0, 0.0, v.z⟩ = true

instance (v : Vector) : Decidable v.IsFinite :=
  inferInstanceAs (Decidable (∀ x ∈ v.components, x.isFinite = true))

instance (v : Vector) (precision : UInt32) : Decidable (v.Vanishes precision) :=
  inferInstanceAs (Decidable (_ = true))

instance (v : Vector) (precision : UInt32) : Decidable (v.IsShort precision) :=
  inferInstanceAs (Decidable (_ = true))

instance (v : Vector) : Decidable v.OnAxis :=
  inferInstanceAs (Decidable (_ ∨ _))

variable {v : Vector} {precision : UInt32}

/-- What holds of the components holds of each of the three. -/
theorem forall_components
    {holds : Float → Prop} :
    (∀ x ∈ v.components, holds x) ↔ holds v.x ∧ holds v.y ∧ holds v.z := by
  simp [components]

/-- A vector vanishes exactly if each component is scaled to less than a half. -/
theorem vanishes_iff
    (finite : v.IsFinite)
    (within : precision.toNat ≤ 22) :
    v.Vanishes precision ↔
      ∀ x ∈ v.components, |scaled (real x) precision.toNat| < 1 / 2 := by
  rw [forall_components]
  obtain ⟨finiteX, finiteY, finiteZ⟩ := forall_components.mp finite
  rw [← roundTo_eq_zero_iff finiteX within, ← roundTo_eq_zero_iff finiteY within,
    ← roundTo_eq_zero_iff finiteZ within]
  show (Float.beq _ _ && Float.beq _ _ && Float.beq _ _) = true ↔ _
  rw [Bool.and_eq_true, Bool.and_eq_true, and_assoc]
  rfl

/-- A length is not below any component that is not tiny. -/
theorem atLeast_length
    (finite : v.IsFinite)
    {x : Float}
    (member : x ∈ v.components)
    (normal : 2 ^ (-500 : ℤ) ≤ |real x|) :
    AtLeast |real x| v.length := by
  have square : ∀ y ∈ v.components, AtLeast (nearest (real y * real y)) (y * y) :=
    fun y listed => atLeast_mul_self (finite y listed)
  have nonneg : ∀ r : ℝ, 0 ≤ nearest (r * r) := fun r => nearest_nonneg (mul_self_nonneg r)
  obtain ⟨squareX, squareY, squareZ⟩ := forall_components.mp square
  have sum := (squareX.add squareY (nonneg _) (nonneg _)).add squareZ
    ((nonneg _).trans (le_max_left _ _)) (nonneg _)
  have root := sum.sqrt ((nonneg (real v.z)).trans (le_max_right _ _))
  refine root.mono ?_
  rw [← nearest_sqrt_nearest_square (finite x member) normal]
  refine nearest_mono (Real.sqrt_nonneg _) (Real.sqrt_le_sqrt ?_)
  simp only [components, List.mem_cons, List.not_mem_nil, or_false] at member
  rcases member with rfl | rfl | rfl
  · exact (le_max_left _ _).trans (le_max_left _ _)
  · exact (le_max_right _ _).trans (le_max_left _ _)
  · exact le_max_right _ _

/-- What does not vanish has a length that does not vanish. -/
theorem vanishes_of_isShort
    (finite : v.IsFinite)
    (within : precision.toNat ≤ 22)
    (short : v.IsShort precision) :
    v.Vanishes precision := by
  rw [vanishes_iff finite within]
  intro x member
  by_contra large
  have normal : 2 ^ (-500 : ℤ) ≤ |real x| := by
    by_contra tiny
    exact large (scaled_lt_of_tiny within (not_le.mp tiny).le)
  rcases atLeast_length finite member normal with ⟨finiteLength, above⟩ | infinite
  · have small := (roundTo_eq_zero_iff finiteLength within).mp short
    have order : |scaled (real x) precision.toNat| ≤
        |scaled (real v.length) precision.toNat| := by
      rw [← scaled_abs, ← scaled_abs]
      exact scaled_mono (abs_nonneg _) (above.trans (le_abs_self _))
    exact large (order.trans_lt small)
  · -- An infinite length stays infinite when it is rounded.
    obtain ⟨finiteFactor, factor⟩ := real_scaleFactor within
    have some : real (scaleFactor precision) ≠ 0 := by
      rw [factor]
      positivity
    have product : ∃ sign,
        Decimal.unpacked (v.length * scaleFactor precision) = .infinity sign := by
      obtain ⟨head, r, _, _, stands, value⟩ := stands_of_isFinite finiteFactor
      rw [mul_eq, infinite]
      generalize Decimal.unpacked (scaleFactor precision) = u at stands
      cases stands with
      | zero => exact absurd (value.trans signed_zero) some
      | finite positive canonical => exact ⟨_, unpacked_packed_infinity _⟩
    obtain ⟨sign, stays⟩ := product
    obtain ⟨other, rounded⟩ := infinite_roundTo finiteFactor some stays
    obtain ⟨zeroSign, zero⟩ := beq_zero_iff.mp short
    rw [rounded] at zero
    cases zero

/-- Within the unit cube no step of a length overflows. -/
theorem real_length
    (finite : v.IsFinite)
    (small : ∀ x ∈ v.components, |real x| ≤ 1) :
    v.length.isFinite = true ∧
      real v.length = roundedLength (real v.x) (real v.y) (real v.z) := by
  have bound : ∀ {r : ℝ} {place : ℤ}, 0 ≤ r → r ≤ 2 ^ place → 0 ≤ place → place < 1024 →
      0 ≤ nearest r ∧ nearest r ≤ 2 ^ place ∧ |nearest r| < 2 ^ (1024 : ℤ) := by
    intro r place nonneg less natural low
    have above := nearest_le_two_zpow nonneg (by omega) less
    refine ⟨nearest_nonneg nonneg, above, ?_⟩
    rw [abs_of_nonneg (nearest_nonneg nonneg)]
    exact above.trans_lt (zpow_lt_zpow_right₀ one_lt_two low)
  have square : ∀ x ∈ v.components,
      (x * x).isFinite = true ∧ real (x * x) = nearest (real x * real x) ∧
        0 ≤ nearest (real x * real x) ∧ nearest (real x * real x) ≤ 1 := by
    intro x member
    have unit : real x * real x ≤ 2 ^ (0 : ℤ) := by
      rw [← abs_mul_abs_self, zpow_zero]
      exact mul_le_one₀ (small x member) (abs_nonneg _) (small x member)
    obtain ⟨nonneg, above, inside⟩ := bound (mul_self_nonneg _) unit le_rfl (by norm_num)
    obtain ⟨finiteSquare, value⟩ :=
      (mul_roundsTo (finite x member) (finite x member)).finite inside
    exact ⟨finiteSquare, value, nonneg, by rwa [zpow_zero] at above⟩
  obtain ⟨⟨finiteX, valueX, nonnegX, unitX⟩, ⟨finiteY, valueY, nonnegY, unitY⟩,
    finiteZ, valueZ, nonnegZ, unitZ⟩ := forall_components.mp square
  have two : (2 : ℝ) ^ (1 : ℤ) = 2 := by norm_num
  have four : (2 : ℝ) ^ (2 : ℤ) = 4 := by norm_num
  have pair := add_roundsTo finiteX finiteY
  rw [valueX, valueY] at pair
  obtain ⟨nonnegPair, abovePair, insidePair⟩ :=
    @bound _ 1 (add_nonneg nonnegX nonnegY) (by linarith) (by norm_num) (by norm_num)
  obtain ⟨finitePair, valuePair⟩ := pair.finite insidePair
  have sum := add_roundsTo finitePair finiteZ
  rw [valuePair, valueZ] at sum
  obtain ⟨nonnegSum, aboveSum, insideSum⟩ :=
    @bound _ 2 (add_nonneg nonnegPair nonnegZ) (by linarith) (by norm_num) (by norm_num)
  obtain ⟨finiteSum, valueSum⟩ := sum.finite insideSum
  have root := sqrt_roundsTo finiteSum (by rw [valueSum]; exact nonnegSum)
  rw [valueSum] at root
  have less : √(nearest (nearest (nearest (real v.x * real v.x) + nearest (real v.y * real v.y))
      + nearest (real v.z * real v.z))) ≤ 2 ^ (1 : ℤ) := by
    rw [Real.sqrt_le_left (two_zpow_pos _).le, two]
    linarith
  obtain ⟨_, _, insideRoot⟩ := bound (Real.sqrt_nonneg _) less (by norm_num) (by norm_num)
  exact root.finite insideRoot

/-- The components of a vector that vanishes are small. -/
theorem small_of_vanishes
    (finite : v.IsFinite)
    (within : precision.toNat ≤ 22)
    (vanishes : v.Vanishes precision) :
    ∀ x ∈ v.components, |real x| ≤ 1 := by
  intro x member
  have half := lt_of_scaled_lt ((vanishes_iff finite within).mp vanishes x member)
  have tens : (1 : ℝ) ≤ 10 ^ precision.toNat := one_le_pow₀ (by norm_num)
  nlinarith [abs_nonneg (real x)]

/-- On an axis the length is the magnitude of the one component, as far as it is not tiny. -/
theorem real_length_of_onAxis
    (finite : v.IsFinite)
    (small : ∀ x ∈ v.components, |real x| ≤ 1)
    (axis : v.OnAxis) :
    ∃ x ∈ v.components, real v.length = nearest √(nearest (real x * real x)) := by
  obtain ⟨_, length⟩ := real_length finite small
  have zero : ∀ x ∈ v.components, Float.beq x 0.0 = true → real x = 0 :=
    fun x member same => (beq_iff_real (finite x member) real_zero.1).mp same
  obtain ⟨zeroX, zeroY, zeroZ⟩ := forall_components.mp zero
  simp only [OnAxis, agrees, Bool.and_eq_true] at axis
  rcases axis with ⟨⟨_, sameY⟩, sameZ⟩ | ⟨⟨sameX, _⟩, sameZ⟩ | ⟨⟨sameX, sameY⟩, _⟩
  · refine ⟨v.x, by simp [components], ?_⟩
    rw [length, roundedLength, zeroY sameY, zeroZ sameZ, mul_zero, nearest_zero, add_zero, add_zero,
      nearest_nearest, nearest_nearest]
  · refine ⟨v.y, by simp [components], ?_⟩
    rw [length, roundedLength, zeroX sameX, zeroZ sameZ, mul_zero, nearest_zero, zero_add, add_zero,
      nearest_nearest, nearest_nearest]
  · refine ⟨v.z, by simp [components], ?_⟩
    rw [length, roundedLength, zeroX sameX, zeroY sameY, mul_zero, nearest_zero, zero_add,
      nearest_zero, zero_add, nearest_nearest]

/-- On an axis a length vanishes with its component. -/
theorem isShort_of_onAxis
    (finite : v.IsFinite)
    (within : precision.toNat ≤ 22)
    (vanishes : v.Vanishes precision)
    (axis : v.OnAxis) :
    v.IsShort precision := by
  have small := small_of_vanishes finite within vanishes
  obtain ⟨x, member, length⟩ := real_length_of_onAxis finite small axis
  refine (roundTo_eq_zero_iff (real_length finite small).1 within).mpr ?_
  rcases le_or_gt (2 ^ (-500 : ℤ)) |real x| with normal | tiny
  · rw [length, nearest_sqrt_nearest_square (finite x member) normal, scaled_abs, abs_abs]
    exact (vanishes_iff finite within).mp vanishes x member
  · refine scaled_lt_of_tiny within ?_
    have square : real x * real x ≤ 2 ^ (-1000 : ℤ) := by
      rw [← abs_mul_abs_self]
      calc |real x| * |real x| ≤ 2 ^ (-500 : ℤ) * 2 ^ (-500 : ℤ) :=
            mul_self_le_mul_self (abs_nonneg _) tiny.le
        _ = 2 ^ (-1000 : ℤ) := by rw [← zpow_add₀ two_ne_zero]; norm_num
    have root : √(nearest (real x * real x)) ≤ 2 ^ (-500 : ℤ) := by
      rw [Real.sqrt_le_left (two_zpow_pos _).le]
      calc nearest (real x * real x) ≤ 2 ^ (-1000 : ℤ) :=
            nearest_le_two_zpow (mul_self_nonneg _) (by norm_num) square
        _ = (2 ^ (-500 : ℤ)) ^ 2 := by rw [pow_two, ← zpow_add₀ two_ne_zero]; norm_num
    rw [length, abs_of_nonneg (nearest_nonneg (Real.sqrt_nonneg _))]
    exact nearest_le_two_zpow (Real.sqrt_nonneg _) (by norm_num) root

/-- What vanishes at one more place has a length that vanishes. -/
theorem isShort_of_vanishes_next
    (finite : v.IsFinite)
    (within : precision.toNat ≤ 21)
    (vanishes : v.Vanishes (precision + 1)) :
    v.IsShort precision := by
  have next : (precision + 1).toNat = precision.toNat + 1 := by
    rw [UInt32.toNat_add, UInt32.toNat_one]
    exact Nat.mod_eq_of_lt (by omega)
  have withinNext : (precision + 1).toNat ≤ 22 := by omega
  have small := small_of_vanishes finite withinNext vanishes
  obtain ⟨finiteLength, length⟩ := real_length finite small
  refine (roundTo_eq_zero_iff finiteLength (by omega)).mpr ?_
  obtain ⟨t, bound⟩ : ∃ t : ℝ, t = 1 / (20 * 10 ^ precision.toNat) := ⟨_, rfl⟩
  have normal : (2 : ℝ) ^ (-500 : ℤ) ≤ t := by
    have power : (10 : ℝ) ^ precision.toNat ≤ 10 ^ 22 := pow_le_pow_right₀ (by norm_num) (by omega)
    rw [bound, le_div_iff₀ (by positivity)]
    calc (2 : ℝ) ^ (-500 : ℤ) * (20 * 10 ^ precision.toNat)
        ≤ 2 ^ (-100 : ℤ) * (20 * 10 ^ 22) := by
          gcongr
          · norm_num
          · norm_num
      _ ≤ 1 := by norm_num
  have below : ∀ x ∈ v.components, |real x| ≤ t := by
    intro x member
    have half := lt_of_scaled_lt ((vanishes_iff finite withinNext).mp vanishes x member)
    rw [next, pow_succ] at half
    rw [bound, le_div_iff₀ (by positivity)]
    linarith
  obtain ⟨belowX, belowY, belowZ⟩ := forall_components.mp below
  have nonneg : 0 ≤ real v.length := by
    rw [length]
    exact nearest_nonneg (Real.sqrt_nonneg _)
  have scaledLength : |real v.length| * 10 ^ precision.toNat ≤ (15 : ℤ) * 2 ^ (-5 : ℤ) := by
    rw [abs_of_nonneg nonneg, length]
    calc roundedLength (real v.x) (real v.y) (real v.z) * 10 ^ precision.toNat
        ≤ 9 * t * 10 ^ precision.toNat := by
          gcongr
          exact roundedLength_le normal belowX belowY belowZ
      _ = 9 / 20 := by rw [bound]; field_simp
      _ ≤ (15 : ℤ) * 2 ^ (-5 : ℤ) := by norm_num
  have grid := @nearest_of_grid 15 (-5) (by norm_num) (by norm_num)
  have rounded := nearest_mono (by positivity) scaledLength
  rw [grid, ← scaled, scaled_abs] at rounded
  exact rounded.trans_lt (by norm_num)

end Vector

end SceneMarkup.Scene
