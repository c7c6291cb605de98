import Mathlib.Algebra.Order.Archimedean.Real.Basic
import Mathlib.Algebra.Order.Ring.Star
import Mathlib.Data.Int.ConditionallyCompleteOrder
import Mathlib.Data.Int.Log
import Mathlib.Data.Int.Star
import Mathlib.Tactic.FieldSimp
import Mathlib.Tactic.Linarith
import Mathlib.Tactic.NormNum

namespace SceneMarkup.Decimal

/-!
# The double nearest to a real number

Doubles of one binary order of magnitude lie on a grid, whose step is the last
place.  A real number is rounded to the nearest point of its grid, of two equally
near points to the even one; the range is not bounded upwards here.
-/

section WholeNumbers

/-- The whole number nearest to `q`, of two the even one. -/
noncomputable def nearestEven (q : ℝ) : ℤ :=
  if Int.fract q < 1 / 2 then ⌊q⌋
  else if 1 / 2 < Int.fract q then ⌊q⌋ + 1
  else ⌊q⌋ + ⌊q⌋ % 2

variable {q other : ℝ} {n : ℤ}

/-- The nearest whole number is at most a half away, and even if it is that far. -/
theorem nearestEven_spec
    (q : ℝ) :
    |q - nearestEven q| ≤ 1 / 2 ∧ (|q - nearestEven q| = 1 / 2 → Even (nearestEven q)) := by
  have split := Int.floor_add_fract q
  have positive := Int.fract_nonneg q
  have small := Int.fract_lt_one q
  unfold nearestEven
  split_ifs with low high
  · have distance : |q - ⌊q⌋| = Int.fract q := by
      rw [abs_of_nonneg (by linarith)]
      linarith
    exact ⟨by linarith, fun tie => absurd tie (by linarith)⟩
  · have distance : |q - (⌊q⌋ + 1 : ℤ)| = 1 - Int.fract q := by
      rw [abs_of_nonpos (by push_cast; linarith)]
      push_cast
      linarith
    exact ⟨by linarith, fun tie => absurd tie (by linarith)⟩
  · have half : Int.fract q = 1 / 2 := le_antisymm (not_lt.mp high) (not_lt.mp low)
    rcases Int.even_or_odd ⌊q⌋ with even | odd
    · have rest : ⌊q⌋ % 2 = 0 := Int.even_iff.mp even
      have distance : |q - (⌊q⌋ + ⌊q⌋ % 2 : ℤ)| = 1 / 2 := by
        rw [rest, add_zero, abs_of_nonneg (by linarith)]
        linarith
      exact ⟨distance.le, fun _ => by simpa [rest] using even⟩
    · have rest : ⌊q⌋ % 2 = 1 := Int.odd_iff.mp odd
      have distance : |q - (⌊q⌋ + ⌊q⌋ % 2 : ℤ)| = 1 / 2 := by
        rw [rest, abs_of_nonpos (by push_cast; linarith)]
        push_cast
        linarith
      exact ⟨distance.le, fun _ => by simpa [rest] using odd.add_one⟩

/-- What is within a half, and even if it is a half away, is the nearest whole number. -/
theorem eq_nearestEven
    (near : |q - n| ≤ 1 / 2)
    (tie : |q - n| = 1 / 2 → Even n) :
    nearestEven q = n := by
  obtain ⟨close, even⟩ := nearestEven_spec q
  by_contra different
  -- Two whole numbers that are both within a half are neighbours, and then both are even.
  have apart : (1 : ℝ) ≤ |(n : ℝ) - nearestEven q| := by
    exact_mod_cast Int.one_le_abs (sub_ne_zero.mpr (Ne.symm different))
  have sum : |(n : ℝ) - nearestEven q| ≤ |q - nearestEven q| + |q - n| := by
    have split : (n : ℝ) - nearestEven q = (q - nearestEven q) - (q - n) := by ring
    rw [split]
    exact abs_sub _ _
  have evenHere := tie (by linarith)
  have evenThere := even (by linarith)
  have neighbours : |n - nearestEven q| = 1 := by
    have bound : |(n : ℝ) - nearestEven q| = 1 := by linarith
    exact_mod_cast bound
  have parity := evenHere.sub evenThere
  rcases (abs_eq zero_le_one).mp neighbours with same | same <;>
    rw [same] at parity <;> exact absurd parity (by decide)

/-- A whole number is nearest to itself. -/
theorem nearestEven_intCast
    (n : ℤ) :
    nearestEven n = n :=
  eq_nearestEven (by simp) (by norm_num)

/-- Rounding to whole numbers does not care for the sign. -/
theorem nearestEven_neg
    (q : ℝ) :
    nearestEven (-q) = -nearestEven q := by
  obtain ⟨near, even⟩ := nearestEven_spec q
  have distance : |-q - (-nearestEven q : ℤ)| = |q - nearestEven q| := by
    rw [← abs_neg]
    push_cast
    congr 1
    ring
  exact eq_nearestEven (distance ▸ near) fun tie => (even (distance ▸ tie)).neg

/-- Rounding to whole numbers keeps the order. -/
theorem nearestEven_mono
    (less : q ≤ other) :
    nearestEven q ≤ nearestEven other := by
  by_contra above
  have step : nearestEven other + 1 ≤ nearestEven q := by omega
  have stepReal : (nearestEven other : ℝ) + 1 ≤ nearestEven q := by exact_mod_cast step
  have low := (abs_le.mp (nearestEven_spec q).1).1
  have high := (abs_le.mp (nearestEven_spec other).1).2
  obtain rfl : q = other := by linarith
  exact above le_rfl

theorem le_nearestEven
    (less : (n : ℝ) ≤ q) :
    n ≤ nearestEven q :=
  nearestEven_intCast n ▸ nearestEven_mono less

theorem nearestEven_le
    (less : q ≤ n) :
    nearestEven q ≤ n :=
  nearestEven_intCast n ▸ nearestEven_mono less

end WholeNumbers

section Doubles

/-- The power of two that is the last place of the doubles around `r`. -/
noncomputable def lastPlace (r : ℝ) : ℤ :=
  max (Int.log 2 |r| - 52) (-1074)

/-- The double nearest to `r`, as if doubles had no largest. -/
noncomputable def nearest (r : ℝ) : ℝ :=
  nearestEven (r / 2 ^ lastPlace r) * 2 ^ lastPlace r

variable {r s : ℝ}

theorem two_zpow_pos
    (place : ℤ) :
    (0 : ℝ) < 2 ^ place :=
  zpow_pos two_pos place

/-- The last place does not depend on the sign. -/
theorem lastPlace_neg
    (r : ℝ) :
    lastPlace (-r) = lastPlace r := by
  rw [lastPlace, abs_neg, lastPlace]

/-- A larger number has no finer last place. -/
theorem lastPlace_mono
    (positive : 0 < r)
    (less : r ≤ s) :
    lastPlace r ≤ lastPlace s := by
  have order : Int.log 2 r ≤ Int.log 2 s := Int.log_mono_right positive less
  unfold lastPlace
  rw [abs_of_pos positive, abs_of_pos (positive.trans_le less)]
  omega

/-- A number lies below the end of its grid. -/
theorem abs_lt_of_lastPlace
    (r : ℝ) :
    |r| < 2 ^ (lastPlace r + 53) := by
  have order : |r| < (2 : ℝ) ^ (Int.log 2 |r| + 1) := by
    exact_mod_cast Int.lt_zpow_succ_log_self (b := 2) (by norm_num) |r|
  exact order.trans_le (zpow_le_zpow_right₀ one_le_two (by unfold lastPlace; omega))

/-- A number lies beyond the beginning of its grid, unless the grid is the finest. -/
theorem le_abs_of_lastPlace
    (something : r ≠ 0)
    (coarse : -1074 < lastPlace r) :
    2 ^ (lastPlace r + 52) ≤ |r| := by
  have place : lastPlace r = Int.log 2 |r| - 52 := by
    unfold lastPlace at coarse ⊢
    omega
  rw [place, sub_add_cancel]
  exact_mod_cast Int.zpow_log_le_self (b := 2) (by norm_num) (abs_pos.mpr something)

/-- Rounding does not care for the sign. -/
theorem nearest_neg
    (r : ℝ) :
    nearest (-r) = -nearest r := by
  rw [nearest, lastPlace_neg, neg_div, nearestEven_neg, nearest]
  push_cast
  ring

theorem nearest_zero :
    nearest 0 = 0 := by
  rw [nearest, zero_div, ← Int.cast_zero, nearestEven_intCast, Int.cast_zero, zero_mul]

/-- What is not negative does not become negative. -/
theorem nearest_nonneg
    (nonneg : 0 ≤ r) :
    0 ≤ nearest r := by
  have scaled : ((0 : ℤ) : ℝ) ≤ r / 2 ^ lastPlace r := by
    rw [Int.cast_zero]
    exact div_nonneg nonneg (two_zpow_pos _).le
  exact mul_nonneg (by exact_mod_cast le_nearestEven scaled) (two_zpow_pos _).le

/-- The magnitude of the rounding is the rounding of the magnitude. -/
theorem abs_nearest
    (r : ℝ) :
    |nearest r| = nearest |r| := by
  rcases abs_cases r with ⟨same, nonneg⟩ | ⟨same, negative⟩
  · rw [same, abs_of_nonneg (nearest_nonneg nonneg)]
  · have opposite := nearest_nonneg (neg_nonneg.mpr negative.le)
    rw [same, nearest_neg, abs_of_nonpos]
    rw [nearest_neg] at opposite
    linarith

/-- What is rounded does not leave the end of its grid. -/
theorem nearest_le_of_lastPlace
    (nonneg : 0 ≤ r) :
    nearest r ≤ 2 ^ (lastPlace r + 53) := by
  have below := abs_lt_of_lastPlace r
  rw [abs_of_nonneg nonneg, add_comm, zpow_add₀ two_ne_zero] at below
  have scaled : r / 2 ^ lastPlace r ≤ ((2 ^ 53 : ℤ) : ℝ) := by
    rw [div_le_iff₀ (two_zpow_pos _)]
    push_cast
    exact_mod_cast below.le
  rw [nearest, add_comm, zpow_add₀ two_ne_zero]
  refine mul_le_mul_of_nonneg_right ?_ (two_zpow_pos _).le
  exact_mod_cast nearestEven_le scaled

/-- What is rounded does not leave the beginning of its grid. -/
theorem le_nearest_of_lastPlace
    (positive : 0 < r)
    (coarse : -1074 < lastPlace r) :
    2 ^ (lastPlace r + 52) ≤ nearest r := by
  have above := le_abs_of_lastPlace positive.ne' coarse
  rw [abs_of_pos positive, add_comm, zpow_add₀ two_ne_zero] at above
  have scaled : ((2 ^ 52 : ℤ) : ℝ) ≤ r / 2 ^ lastPlace r := by
    rw [le_div_iff₀ (two_zpow_pos _)]
    push_cast
    exact_mod_cast above
  rw [nearest, add_comm, zpow_add₀ two_ne_zero]
  refine mul_le_mul_of_nonneg_right ?_ (two_zpow_pos _).le
  exact_mod_cast le_nearestEven scaled

/-- Rounding keeps the order of magnitudes. -/
theorem nearest_mono
    (nonneg : 0 ≤ r)
    (less : r ≤ s) :
    nearest r ≤ nearest s := by
  rcases nonneg.eq_or_lt with rfl | positive
  · rw [nearest_zero]
    exact nearest_nonneg less
  rcases (lastPlace_mono positive less).eq_or_lt with same | finer
  · unfold nearest
    rw [same]
    refine mul_le_mul_of_nonneg_right ?_ (two_zpow_pos _).le
    exact_mod_cast nearestEven_mono (div_le_div_of_nonneg_right less (two_zpow_pos _).le)
  · -- On a coarser grid everything lies beyond the end of the finer one.
    have coarse : -1074 < lastPlace s := (le_max_right _ _).trans_lt finer
    calc nearest r ≤ 2 ^ (lastPlace r + 53) := nearest_le_of_lastPlace nonneg
      _ ≤ 2 ^ (lastPlace s + 52) := zpow_le_zpow_right₀ one_le_two (by omega)
      _ ≤ nearest s := le_nearest_of_lastPlace (positive.trans_le less) coarse

/-- Below a power of two the last place is fifty-three binary places finer, or finer still. -/
theorem lastPlace_le
    {place : ℤ}
    (finest : -1074 ≤ place)
    (below : |r| < 2 ^ (place + 53)) :
    lastPlace r ≤ place ∨ r = 0 := by
  rcases eq_or_ne r 0 with zero | something
  · exact .inr zero
  · have bound : (|r| : ℝ) < ((2 : ℕ) : ℝ) ^ (place + 53) := by exact_mod_cast below
    have order := (Int.lt_zpow_iff_log_lt (b := 2) (by norm_num) (abs_pos.mpr something)).mp bound
    left
    unfold lastPlace
    omega

/-- The points of a grid are rounded to themselves. -/
theorem nearest_of_grid
    {m place : ℤ}
    (finest : -1074 ≤ place)
    (short : |m| < 2 ^ 53) :
    nearest (m * 2 ^ place) = m * 2 ^ place := by
  have below : |(m : ℝ) * 2 ^ place| < 2 ^ (place + 53) := by
    rw [abs_mul, abs_of_pos (two_zpow_pos place), add_comm, zpow_add₀ two_ne_zero]
    refine mul_lt_mul_of_pos_right ?_ (two_zpow_pos place)
    exact_mod_cast short
  rcases lastPlace_le finest below with coarse | zero
  · obtain ⟨extra, same⟩ := Int.le.dest coarse
    have whole : (m : ℝ) * 2 ^ place / 2 ^ lastPlace (m * 2 ^ place) =
        ((m * 2 ^ extra : ℤ) : ℝ) := by
      rw [mul_div_assoc, ← zpow_sub₀ two_ne_zero]
      push_cast
      rw [← zpow_natCast]
      congr 2
      omega
    rw [nearest, whole, nearestEven_intCast, ← whole, div_mul_cancel₀ _ (two_zpow_pos _).ne']
  · rw [zero, nearest_zero]

/-- Whole numbers of up to fifty-three bits are doubles. -/
theorem nearest_natCast
    {n : ℕ}
    (short : n < 2 ^ 53) :
    nearest n = n := by
  have grid := @nearest_of_grid n 0 (by norm_num)
    (by rw [Int.natCast_nonneg n |> abs_of_nonneg]; exact_mod_cast short)
  rwa [zpow_zero, mul_one, Int.cast_natCast] at grid

/-- Powers of two are doubles. -/
theorem nearest_two_zpow
    {place : ℤ}
    (finest : -1074 ≤ place) :
    nearest (2 ^ place) = 2 ^ place := by
  have grid := nearest_of_grid (m := 1) finest (by norm_num)
  rwa [Int.cast_one, one_mul] at grid

/-- Nothing below a power of two is rounded above it. -/
theorem nearest_le_two_zpow
    {place : ℤ}
    (nonneg : 0 ≤ r)
    (finest : -1074 ≤ place)
    (less : r ≤ 2 ^ place) :
    nearest r ≤ 2 ^ place :=
  nearest_two_zpow finest ▸ nearest_mono nonneg less

/-- What is rounded is a double already. -/
theorem nearest_nearest
    (r : ℝ) :
    nearest (nearest r) = nearest r := by
  obtain ⟨low, high⟩ := abs_lt.mp (abs_lt_of_lastPlace r)
  rw [add_comm, zpow_add₀ two_ne_zero] at low high
  have unit := two_zpow_pos (lastPlace r)
  have below : nearestEven (r / 2 ^ lastPlace r) ≤ 2 ^ 53 := by
    refine nearestEven_le ?_
    rw [div_le_iff₀ unit]
    exact_mod_cast high.le
  have above : -2 ^ 53 ≤ nearestEven (r / 2 ^ lastPlace r) := by
    refine le_nearestEven ?_
    rw [le_div_iff₀ unit]
    push_cast
    rw [neg_mul]
    exact_mod_cast low.le
  have finest : -1074 ≤ lastPlace r := le_max_right _ _
  rcases (abs_le.mpr ⟨above, below⟩).lt_or_eq with short | full
  · exact nearest_of_grid finest short
  · -- The end of a grid is the beginning of the next one.
    have next : |nearest r| = 2 ^ (53 + lastPlace r) := by
      have fullReal : |(nearestEven (r / 2 ^ lastPlace r) : ℝ)| = 2 ^ 53 := by
        exact_mod_cast full
      rw [nearest, abs_mul, fullReal, abs_of_pos unit, zpow_add₀ two_ne_zero]
      norm_cast
    have kept := @nearest_two_zpow (53 + lastPlace r) (by omega)
    rcases (abs_eq (two_zpow_pos _).le).mp next with same | same
    · rw [same, kept]
    · rw [same, nearest_neg, kept]

/-- A number that has a point of its grid within half a step, the even one of two, becomes it. -/
theorem nearest_eq
    {m place : ℤ}
    (finest : -1074 ≤ place)
    (inside : |r| < 2 ^ (place + 53))
    (full : place = -1074 ∨ 2 ^ (place + 52) ≤ |r|)
    (near : |r - m * 2 ^ place| ≤ 2 ^ place / 2)
    (tie : |r - m * 2 ^ place| = 2 ^ place / 2 → Even m) :
    nearest r = m * 2 ^ place := by
  have positive := two_zpow_pos place
  have distance : |r / 2 ^ place - m| = |r - m * 2 ^ place| / 2 ^ place := by
    rw [← abs_of_pos positive, ← abs_div, abs_of_pos positive]
    congr 1
    field_simp
  have rounded : nearestEven (r / 2 ^ place) = m := by
    refine eq_nearestEven ?_ fun same => tie ?_
    · rw [distance, div_le_iff₀ positive]
      linarith
    · rw [distance, div_eq_iff positive.ne'] at same
      linarith
  rcases lastPlace_le finest inside with below | rfl
  · have above : place ≤ lastPlace r := by
      rcases full with rfl | large
      · exact le_max_right _ _
      · have something : 0 < |r| := (two_zpow_pos _).trans_le large
        have order := (Int.zpow_le_iff_le_log (b := 2) (by norm_num) something).mp
          (by exact_mod_cast large)
        unfold lastPlace
        omega
    have same : lastPlace r = place := le_antisymm below above
    rw [nearest, same, rounded]
  · rw [zero_div, ← Int.cast_zero, nearestEven_intCast] at rounded
    rw [← rounded, Int.cast_zero, zero_mul, nearest_zero]

/-- Rounding moves a number by half a last place at most. -/
theorem abs_nearest_sub_le
    (r : ℝ) :
    |nearest r - r| ≤ 2 ^ (lastPlace r - 1) := by
  have near := (nearestEven_spec (r / 2 ^ lastPlace r)).1
  have split : nearest r - r =
      -((r / 2 ^ lastPlace r - nearestEven (r / 2 ^ lastPlace r)) * 2 ^ lastPlace r) := by
    rw [nearest, sub_mul, div_mul_cancel₀ _ (two_zpow_pos _).ne']
    ring
  rw [split, abs_neg, abs_mul, abs_of_pos (two_zpow_pos _), zpow_sub_one₀ two_ne_zero, mul_comm,
    ← one_div]
  exact mul_le_mul_of_nonneg_left near (two_zpow_pos _).le

/-- Rounding moves a normal number by a relative `2 ^ -53` at most. -/
theorem abs_nearest_sub_le_mul
    (normal : 2 ^ (-1022 : ℤ) ≤ |r|) :
    |nearest r - r| ≤ |r| * 2 ^ (-53 : ℤ) := by
  have something : r ≠ 0 := by
    rintro rfl
    rw [abs_zero] at normal
    exact absurd normal (not_le.mpr (two_zpow_pos _))
  have order : -1022 ≤ Int.log 2 |r| :=
    (Int.zpow_le_iff_le_log (b := 2) (by norm_num) (abs_pos.mpr something)).mp
      (by exact_mod_cast normal)
  have place : lastPlace r - 1 = Int.log 2 |r| + -53 := by
    unfold lastPlace
    omega
  have leading : (2 : ℝ) ^ Int.log 2 |r| ≤ |r| := by
    exact_mod_cast Int.zpow_log_le_self (b := 2) (by norm_num) (abs_pos.mpr something)
  calc |nearest r - r| ≤ 2 ^ (lastPlace r - 1) := abs_nearest_sub_le r
    _ = 2 ^ Int.log 2 |r| * 2 ^ (-53 : ℤ) := by rw [place, zpow_add₀ two_ne_zero]
    _ ≤ |r| * 2 ^ (-53 : ℤ) := mul_le_mul_of_nonneg_right leading (two_zpow_pos _).le

/-- A coarse bound for normal numbers. -/
theorem nearest_le_two_mul
    (normal : 2 ^ (-1022 : ℤ) ≤ r) :
    nearest r ≤ 2 * r := by
  have positive : 0 < r := (two_zpow_pos _).trans_le normal
  have error := abs_nearest_sub_le_mul (normal.trans (le_abs_self r))
  rw [abs_of_pos positive] at error
  have small : r * 2 ^ (-53 : ℤ) ≤ r * 1 :=
    mul_le_mul_of_nonneg_left (zpow_le_one_of_nonpos₀ one_le_two (by norm_num)) positive.le
  linarith [le_of_abs_le error]

end Doubles

end SceneMarkup.Decimal
