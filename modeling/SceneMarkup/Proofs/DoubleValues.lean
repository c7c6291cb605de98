import SceneMarkup.Proofs.Doubles
import SceneMarkup.Proofs.Significands

namespace SceneMarkup.Decimal

open Float.Model UnpackedFloat

/-!
# Doubles as real numbers

A finite double has a real value.  Its canonical form is unique, so values are
ordered as the forms are; and what has a canonical form is packed without loss,
unless it is too large and becomes infinite.
-/

section Values

/-- A magnitude with a sign. -/
def signed : Sign → ℝ → ℝ
  | .negative, r => -r
  | .positive, r => r

/-- The number that digits to a base stand for at a place. -/
noncomputable def placed (base digits : ℕ) (place : ℤ) : ℝ :=
  digits * (base : ℝ) ^ place

/-- A significand at a binary place stands for so many of that power. -/
@[simp] theorem placed_two
    (m : ℕ)
    (place : ℤ) :
    placed 2 m place = m * 2 ^ place :=
  rfl

/-- The real number that a value stands for; zero if it stands for none. -/
noncomputable def value : UnpackedFloat → ℝ
  | .finite sign m place _ => signed sign (placed 2 m place)
  | _ => 0

/-- The real number that a double stands for. -/
noncomputable def real (x : Float) : ℝ :=
  value (unpacked x)

variable {sign other : Sign} {r : ℝ} {x y : Float}

/-- A double is packed again as it was. -/
theorem packed_unpacked
    (x : Float) :
    packed (unpacked x) = x :=
  Float.ofBits_toBits x

/-- A sign does not change the magnitude. -/
theorem abs_signed
    (nonneg : 0 ≤ r) :
    |signed sign r| = r := by
  cases sign
  · exact (abs_neg r).trans (abs_of_nonneg nonneg)
  · exact abs_of_nonneg nonneg

theorem signed_zero :
    signed sign 0 = 0 := by
  cases sign
  · exact neg_zero
  · rfl

/-- Rounding and setting a sign may be done in either order. -/
theorem nearest_signed
    (r : ℝ) :
    nearest (signed sign r) = signed sign (nearest r) := by
  cases sign
  · exact nearest_neg r
  · rfl

/-- What stands for a number has its value. -/
theorem value_of_stands
    {u : UnpackedFloat}
    (stands : Stands sign r u) :
    value u = signed sign r := by
  cases stands with
  | zero => exact signed_zero.symm
  | finite => rfl

/-- What stands for a number is finite. -/
theorem isFinite_of_stands
    {u : UnpackedFloat}
    (stands : Stands sign r u) :
    u.isFinite = true := by
  cases stands <;> rfl

end Values

section Packing

variable {sign : Sign} {m : ℕ} {place : ℤ} {r : ℝ} {x : Float}

/-- A canonical form whose exponent fits is read off the fields of a double. -/
theorem exists_ofFields
    (canonical : Canonical m place)
    (fits : place ≤ 971)
    (positive : 0 < m) :
    ∃ exponent mantissa, ofFields sign exponent mantissa = .finite sign m place positive := by
  obtain ⟨short, finest, full⟩ := canonical
  rcases lt_or_ge m (2 ^ 52) with subnormal | normal
  · obtain rfl : place = -1074 := full.resolve_left (not_le.mpr subnormal)
    have kept : (BitVec.ofNat 52 m).toNat = m := by
      rw [BitVec.toNat_ofNat, Nat.mod_eq_of_lt subnormal]
    have some : BitVec.ofNat 52 m ≠ 0#52 := by
      intro none
      have zero := congrArg BitVec.toNat none
      rw [kept] at zero
      exact positive.ne' zero
    refine ⟨0#11, BitVec.ofNat 52 m, ?_⟩
    rw [ofFields, if_neg (by decide), if_pos rfl, dif_neg some]
    simp only [kept]
    rfl
  · have biased : (BitVec.ofNat 11 (place + 1075).toNat).toNat = (place + 1075).toNat := by
      rw [BitVec.toNat_ofNat, Nat.mod_eq_of_lt (by omega)]
    have top : BitVec.ofNat 11 (place + 1075).toNat ≠ -1#11 := by
      intro same
      have equal : _ = 2047 := congrArg BitVec.toNat same
      omega
    have bottom : BitVec.ofNat 11 (place + 1075).toNat ≠ 0#11 := by
      intro same
      have equal : _ = 0 := congrArg BitVec.toNat same
      omega
    have kept : (1#1 ++ BitVec.ofNat 52 (m - 2 ^ 52)).toNat = m := by
      rw [toNat_implicit, BitVec.toNat_ofNat, Nat.mod_eq_of_lt (by omega)]
      omega
    have scale : ((place + 1075).toNat : ℤ) - 1075 = place := by omega
    refine ⟨BitVec.ofNat 11 (place + 1075).toNat, BitVec.ofNat 52 (m - 2 ^ 52), ?_⟩
    rw [ofFields, if_neg top, if_neg bottom]
    simp only [kept, biased, scale]

/-- A canonical number inside the range is unpacked as it was packed. -/
theorem unpacked_packed_of_canonical
    (canonical : Canonical m place)
    (fits : place ≤ 971)
    (positive : 0 < m) :
    unpacked (packed (.finite sign m place positive)) = .finite sign m place positive := by
  obtain ⟨exponent, mantissa, fields⟩ := @exists_ofFields sign _ _ canonical fits positive
  rw [← fields]
  exact unpack_pack_ofFields sign exponent mantissa

/-- A form whose exponent does not fit is packed as an infinity. -/
theorem unpacked_packed_of_overflow
    (large : 971 < place)
    (positive : 0 < m) :
    unpacked (packed (.finite sign m place positive)) = .infinity sign := by
  have biased : 2 ^ Format.binary64.exponentBits ≤
      (place + (Format.binary64.exponentBias : ℕ)
        + (Format.binary64.mantissaBitsWithoutImplicit : ℕ)).toNat + 1 := by
    show 2 ^ 11 ≤ (place + (1023 : ℕ) + (52 : ℕ)).toNat + 1
    omega
  have infinite : UnpackedFloat.pack Format.binary64 (.finite sign m place positive) =
      packedInfinity Format.binary64 sign := by
    rw [UnpackedFloat.pack]
    simp only [if_pos biased]
  show UnpackedFloat.unpack Format.binary64
    (UnpackedFloat.pack Format.binary64 (.finite sign m place positive)) = _
  rw [infinite]
  cases sign <;> rfl

/-- What the fields of a double stand for is canonical and inside the range. -/
theorem canonical_of_ofFields
    {head : Sign}
    {exponent : BitVec 11}
    {mantissa : BitVec 52}
    {positive : 0 < m}
    (read : ofFields head exponent mantissa = .finite sign m place positive) :
    Canonical m place ∧ place ≤ 971 := by
  have short := mantissa.isLt
  have small := exponent.isLt
  unfold ofFields at read
  split_ifs at read with top empty bottom none
  · injection read with _ significand scale
    have zero : exponent.toNat = 0 := congrArg BitVec.toNat bottom
    exact ⟨⟨by omega, by omega, .inr (by omega)⟩, by omega⟩
  · injection read with _ significand scale
    rw [toNat_implicit] at significand
    have low : exponent.toNat ≠ 0 := by simpa [BitVec.toNat_eq] using bottom
    have high : exponent.toNat ≠ 2047 := by simpa [BitVec.toNat_eq] using top
    exact ⟨⟨by omega, by omega, .inl (by omega)⟩, by omega⟩

/-- A finite double is kept in canonical form, with an exponent that fits. -/
theorem canonical_of_unpacked
    {positive : 0 < m}
    (read : unpacked x = .finite sign m place positive) :
    Canonical m place ∧ place ≤ 971 :=
  canonical_of_ofFields ((unpack_eq_ofFields _).symm.trans read)

/-- The value of a canonical form tells whether its exponent fits. -/
theorem lt_iff_of_canonical
    (canonical : Canonical m place) :
    (m : ℝ) * 2 ^ place < 2 ^ (1024 : ℤ) ↔ place ≤ 971 := by
  constructor
  · intro small
    by_contra large
    have full : 2 ^ 52 ≤ m := canonical.full.resolve_right (by omega)
    have above : (2 : ℝ) ^ (1024 : ℤ) ≤ m * 2 ^ place := by
      calc (2 : ℝ) ^ (1024 : ℤ) ≤ 2 ^ ((52 : ℕ) + place) :=
            zpow_le_zpow_right₀ one_le_two (by omega)
        _ = 2 ^ 52 * 2 ^ place := by rw [zpow_add₀ two_ne_zero, zpow_natCast]
        _ ≤ m * 2 ^ place :=
            mul_le_mul_of_nonneg_right (by exact_mod_cast full) (two_zpow_pos place).le
    exact absurd small (not_lt.mpr above)
  · intro fits
    have short : (m : ℝ) < 2 ^ 53 := by exact_mod_cast canonical.short
    calc (m : ℝ) * 2 ^ place < 2 ^ 53 * 2 ^ place :=
          mul_lt_mul_of_pos_right short (two_zpow_pos place)
      _ = 2 ^ ((53 : ℕ) + place) := by rw [zpow_add₀ two_ne_zero, zpow_natCast]
      _ ≤ 2 ^ (1024 : ℤ) := zpow_le_zpow_right₀ one_le_two (by omega)

end Packing

section Rounding

/-- The double that `r` is rounded to: the nearest one, or an infinity if `r` is too large. -/
inductive RoundsTo (r : ℝ) (x : Float) : Prop
  | fits (known : x.isFinite = true) (value : real x = nearest r)
  | tooLarge (large : 2 ^ (1024 : ℤ) ≤ |nearest r|)
      (infinite : unpacked x = .infinity (if r < 0 then .negative else .positive))

variable {sign : Sign} {r s : ℝ} {x y : Float}

/-- What stands for the nearest double is packed as that double, or as an infinity. -/
theorem roundsTo_packed
    {u : UnpackedFloat}
    (nonneg : 0 ≤ r)
    (stands : Stands sign (nearest r) u) :
    RoundsTo (signed sign r) (packed u) := by
  have kept : unpacked (packed u) = u → RoundsTo (signed sign r) (packed u) := by
    intro same
    refine .fits ?_ ?_
    · show (unpacked (packed u)).isFinite = true
      rw [same]
      exact isFinite_of_stands stands
    · rw [real, same, value_of_stands stands, nearest_signed]
  generalize magnitude : nearest r = near at stands
  cases stands with
  | zero =>
      refine kept ?_
      cases sign <;> rfl
  | @finite m place positive canonical =>
      rcases le_or_gt place 971 with fits | large
      · exact kept (unpacked_packed_of_canonical canonical fits positive)
      · have large' := not_lt.mp (mt (lt_iff_of_canonical canonical).mp (not_le.mpr large))
        have something : 0 < r := by
          rcases nonneg.eq_or_lt with rfl | something
          · rw [nearest_zero] at magnitude
            rw [← magnitude] at large'
            exact absurd large' (not_le.mpr (two_zpow_pos _))
          · exact something
        refine .tooLarge ?_ ?_
        · rwa [nearest_signed, abs_signed (nearest_nonneg nonneg), magnitude]
        · rw [unpacked_packed_of_overflow large positive]
          cases sign
          · exact congrArg infinity (if_pos (neg_lt_zero.mpr something)).symm
          · exact congrArg infinity (if_neg (not_lt.mpr nonneg)).symm

/-- A finite double stands for its value. -/
theorem stands_of_isFinite
    (finite : x.isFinite = true) :
    ∃ sign r, 0 ≤ r ∧ r < 2 ^ (1024 : ℤ) ∧ Stands sign r (unpacked x) ∧
      real x = signed sign r := by
  have known : (unpacked x).isFinite = true := finite
  cases read : unpacked x with
  | notANumber =>
      rw [read] at known
      cases known
  | infinity sign =>
      rw [read] at known
      cases known
  | zero sign =>
      exact ⟨sign, 0, le_rfl, two_zpow_pos _, .zero, by rw [real, read, signed_zero]; rfl⟩
  | finite sign m place positive =>
      obtain ⟨canonical, fits⟩ := canonical_of_unpacked read
      exact ⟨sign, m * 2 ^ place, mul_nonneg (Nat.cast_nonneg m) (two_zpow_pos place).le,
        (lt_iff_of_canonical canonical).mpr fits, .finite positive canonical,
        by rw [real, read]; rfl⟩

/-- What a double stands for is its own rounding. -/
theorem nearest_of_stands
    {u : UnpackedFloat}
    (stands : Stands sign r u) :
    nearest r = r := by
  cases stands with
  | zero => exact nearest_zero
  | @finite m place positive canonical =>
      have short : |(m : ℤ)| < 2 ^ 53 := by
        rw [Int.natCast_nonneg m |> abs_of_nonneg]
        exact_mod_cast canonical.short
      exact_mod_cast nearest_of_grid canonical.finest short

/-- A finite double is rounded to itself. -/
theorem nearest_real
    (finite : x.isFinite = true) :
    nearest (real x) = real x := by
  obtain ⟨sign, r, _, _, stands, same⟩ := stands_of_isFinite finite
  rw [same, nearest_signed, nearest_of_stands stands]

/-- A finite double is less than two to the thousand and twenty-fourth. -/
theorem abs_real_lt
    (finite : x.isFinite = true) :
    |real x| < 2 ^ (1024 : ℤ) := by
  obtain ⟨sign, r, nonneg, small, _, same⟩ := stands_of_isFinite finite
  rwa [same, abs_signed nonneg]

/-- What is rounded to less than the bound is rounded to a finite double. -/
theorem RoundsTo.finite
    (rounds : RoundsTo r x)
    (small : |nearest r| < 2 ^ (1024 : ℤ)) :
    x.isFinite = true ∧ real x = nearest r := by
  cases rounds with
  | fits known value => exact ⟨known, value⟩
  | tooLarge large => exact absurd small (not_lt.mpr large)

/-- The points of a grid below the bound are kept. -/
theorem RoundsTo.exact
    (rounds : RoundsTo r x)
    (kept : nearest r = r)
    (small : |r| < 2 ^ (1024 : ℤ)) :
    x.isFinite = true ∧ real x = r := by
  have result := rounds.finite (kept.symm ▸ small)
  rwa [kept] at result

/-- A whole number of at most fifty-three bits is kept. -/
theorem RoundsTo.natCast
    {n : ℕ}
    (rounds : RoundsTo n x)
    (short : n < 2 ^ 53) :
    x.isFinite = true ∧ real x = n := by
  refine rounds.exact (nearest_natCast short) ?_
  rw [abs_of_nonneg (Nat.cast_nonneg n)]
  calc (n : ℝ) < 2 ^ 53 := by exact_mod_cast short
    _ ≤ 2 ^ (1024 : ℤ) := by
      rw [← zpow_natCast]
      exact zpow_le_zpow_right₀ one_le_two (by norm_num)

end Rounding

section Comparison

variable {x y : Float}

/-- Canonical numbers are compared by their places first and then by their significands. -/
theorem compare_canonical
    {m n : ℕ}
    {place other : ℤ}
    (first : Canonical m place)
    (second : Canonical n other) :
    (compare place other).then (compare m n) = cmp ((m : ℝ) * 2 ^ place) (n * 2 ^ other) := by
  -- A significand on a coarser grid is full, and beyond everything on the finer one.
  have beyond :
      ∀ {m n : ℕ} {place other : ℤ}, Canonical m place → Canonical n other → place < other →
        (m : ℝ) * 2 ^ place < n * 2 ^ other := by
    intro m n place other first second finer
    have finest := first.finest
    have full : 2 ^ 52 ≤ n := second.full.resolve_right (by omega)
    have short : (m : ℝ) < 2 ^ 53 := by exact_mod_cast first.short
    calc (m : ℝ) * 2 ^ place < 2 ^ 53 * 2 ^ place :=
          mul_lt_mul_of_pos_right short (two_zpow_pos place)
      _ = 2 ^ ((53 : ℕ) + place) := by rw [zpow_add₀ two_ne_zero, zpow_natCast]
      _ ≤ 2 ^ ((52 : ℕ) + other) := zpow_le_zpow_right₀ one_le_two (by omega)
      _ = 2 ^ 52 * 2 ^ other := by rw [zpow_add₀ two_ne_zero, zpow_natCast]
      _ ≤ n * 2 ^ other :=
          mul_le_mul_of_nonneg_right (by exact_mod_cast full) (two_zpow_pos other).le
  rcases lt_trichotomy place other with finer | same | coarser
  · rw [compare_lt_iff_lt.mpr finer, (cmp_eq_lt_iff _ _).mpr (beyond first second finer)]
    rfl
  · subst same
    rw [compare_eq_iff_eq.mpr rfl, Ordering.eq_then, ← cmp_eq_compare,
      cmp_mul_pos_right (two_zpow_pos place), Nat.strictMono_cast.cmp_map_eq]
  · rw [compare_gt_iff_gt.mpr coarser, (cmp_eq_gt_iff _ _).mpr (beyond second first coarser)]
    rfl

/-- Doubles are compared like the numbers that they stand for. -/
theorem compare_of_stands
    {sign other : Sign}
    {r s : ℝ}
    {u v : UnpackedFloat}
    (first : Stands sign r u)
    (second : Stands other s v) :
    u.compare v = some (cmp (signed sign r) (signed other s)) := by
  have above : ∀ {m : ℕ} {place : ℤ}, 0 < m → (0 : ℝ) < m * 2 ^ place :=
    fun some => mul_pos (Nat.cast_pos.mpr some) (two_zpow_pos _)
  have below : ∀ {m : ℕ} {place : ℤ}, 0 < m → -((m : ℝ) * 2 ^ place) < 0 :=
    fun some => neg_lt_zero.mpr (above some)
  cases first with
  | zero =>
      rw [signed_zero]
      cases second with
      | zero =>
          rw [signed_zero, cmp_self_eq_eq]
          rfl
      | finite positive canonical =>
          cases other
          · exact congrArg some ((cmp_eq_gt_iff _ _).mpr (below positive)).symm
          · exact congrArg some ((cmp_eq_lt_iff _ _).mpr (above positive)).symm
  | finite positive canonical =>
      cases second with
      | zero =>
          rw [signed_zero]
          cases sign
          · exact congrArg some ((cmp_eq_lt_iff _ _).mpr (below positive)).symm
          · exact congrArg some ((cmp_eq_gt_iff _ _).mpr (above positive)).symm
      | finite positive' canonical' =>
          have same := compare_canonical canonical canonical'
          cases sign <;> cases other
          · have turned : StrictAnti fun r : ℝ => -r := fun _ _ less => neg_lt_neg less
            rw [signed, signed, turned.cmp_map_eq, ← cmp_swap, ← same]
            rfl
          · exact congrArg some
              ((cmp_eq_lt_iff _ _).mpr ((below positive).trans (above positive'))).symm
          · exact congrArg some
              ((cmp_eq_gt_iff _ _).mpr ((below positive').trans (above positive))).symm
          · exact congrArg some same

/-- Finite doubles are compared as their values are. -/
theorem compare_eq_cmp
    (first : x.isFinite = true)
    (second : y.isFinite = true) :
    (unpacked x).compare (unpacked y) = some (cmp (real x) (real y)) := by
  obtain ⟨sign, r, _, _, stands, same⟩ := stands_of_isFinite first
  obtain ⟨other, s, _, _, stands', same'⟩ := stands_of_isFinite second
  rw [same, same']
  exact compare_of_stands stands stands'

/-- Of finite doubles one is less exactly if its value is. -/
theorem lt_iff_real
    (first : x.isFinite = true)
    (second : y.isFinite = true) :
    x < y ↔ real x < real y := by
  show decide (x.toModel < y.toModel) = true ↔ _
  rw [decide_eq_true_iff]
  show ((unpacked x).compare (unpacked y) == some Ordering.lt) = true ↔ _
  rw [compare_eq_cmp first second, beq_iff_eq, Option.some.injEq, cmp_eq_lt_iff]

/-- Of finite doubles one is not greater exactly if its value is not. -/
theorem le_iff_real
    (first : x.isFinite = true)
    (second : y.isFinite = true) :
    x ≤ y ↔ real x ≤ real y := by
  show decide (x.toModel ≤ y.toModel) = true ↔ _
  rw [decide_eq_true_iff]
  show ((unpacked x).compare (unpacked y)).any Ordering.isLE = true ↔ _
  rw [compare_eq_cmp first second, Option.any_some, Ordering.isLE_iff_ne_gt, ← not_lt,
    ← cmp_eq_gt_iff]

/-- Finite doubles are equal exactly if their values are. -/
theorem beq_iff_real
    (first : x.isFinite = true)
    (second : y.isFinite = true) :
    Float.beq x y = true ↔ real x = real y := by
  show ((unpacked x).compare (unpacked y) == some Ordering.eq) = true ↔ _
  rw [compare_eq_cmp first second, beq_iff_eq, Option.some.injEq, cmp_eq_eq_iff]

end Comparison

end SceneMarkup.Decimal
