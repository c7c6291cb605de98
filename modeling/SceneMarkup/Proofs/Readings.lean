import SceneMarkup.Json.Literal
import SceneMarkup.Markup.Angle
import SceneMarkup.Proofs.Conversions
import SceneMarkup.Proofs.RoundedPlaces
import SceneMarkup.Proofs.ShortestDigits

namespace SceneMarkup.Markup

open Decimal

/-!
# Numbers that are read back

A written number is read as an expression: digits with or without a point, the
constant for half a turn, a sign in front, and one division or multiplication.
Digits are read as the double nearest to what they stand for, so a finite double
is read back as itself.
-/

/-- Digits, maybe with a point and digits behind it; no zero stands before another digit. -/
def readMagnitude? (text : List Char) : Option Float :=
  let whole := text.takeWhile Char.isDigit
  if whole.isEmpty || (whole.length > 1 && whole.head? == some '0') then none
  else
    match text.dropWhile Char.isDigit with
    | [] => some (Float.ofScientific (Json.digitsValue whole) true 0)
    | '.' :: fraction =>
        if fraction.isEmpty || !fraction.all Char.isDigit then none
        else some (Float.ofScientific (Json.digitsValue (whole ++ fraction)) true fraction.length)
    | _ => none

/-- A number without a sign, or the constant for half a turn. -/
def readFactor? (text : List Char) : Option Float :=
  if text = "Math.PI".toList then some pi else readMagnitude? text

/-- A factor, with a sign or without one. -/
def readSigned? : List Char → Option Float
  | '-' :: rest => (readFactor? rest).map fun x => -x
  | rest => readFactor? rest

/-- A signed factor, maybe divided or multiplied by a number; blanks stand around the operator. -/
def readExpression? (text : List Char) : Option Float :=
  match text.splitOn ' ' with
  | [single] => readSigned? single
  | [left, ['/'], right] => do return (← readSigned? left) / (← readMagnitude? right)
  | [left, ['*'], right] => do return (← readSigned? left) * (← readMagnitude? right)
  | _ => none

section Digits

variable {digits : List Char} {n count : ℕ}

/-- The digits of a number have its value. -/
theorem digitsValue_digitChars
    (n : ℕ) :
    Json.digitsValue (digitChars n) = n :=
  Nat.ofDigitChars_toDigits (by norm_num) le_rfl

/-- Zeros behind digits multiply the value by powers of ten. -/
theorem digitsValue_append_zeros
    (digits : List Char)
    (count : ℕ) :
    Json.digitsValue (digits ++ zeros count) = Json.digitsValue digits * 10 ^ count := by
  induction count with
  | zero => rw [zeros, List.replicate_zero, List.append_nil, pow_zero, mul_one]
  | succ count ih =>
      rw [zeros, List.replicate_succ', ← List.append_assoc, ← zeros, Json.digitsValue,
        List.foldl_append]
      show 10 * Json.digitsValue (digits ++ zeros count) + 0 = _
      rw [ih, pow_succ]
      ring

/-- Zeros in front of digits change nothing. -/
theorem digitsValue_zeros_append
    (count : ℕ)
    (digits : List Char) :
    Json.digitsValue (zeros count ++ digits) = Json.digitsValue digits := by
  have nothing : Json.digitsValue (zeros count) = 0 := by
    have all := digitsValue_append_zeros [] count
    rwa [List.nil_append, show Json.digitsValue [] = 0 from rfl, zero_mul] at all
  have start : Json.digitsValue (zeros count ++ digits) =
      digits.foldl (fun value digit => 10 * value + (digit.toNat - 48))
        (Json.digitsValue (zeros count)) :=
    List.foldl_append
  rw [start, nothing]
  rfl

theorem isDigit_digitChars
    (n : ℕ) :
    ∀ digit ∈ digitChars n, digit.isDigit = true :=
  fun _ member => Nat.isDigit_of_mem_toDigits (by norm_num) le_rfl member

theorem isDigit_zeros
    (count : ℕ) :
    ∀ digit ∈ zeros count, digit.isDigit = true := by
  intro digit member
  rw [List.eq_of_mem_replicate member]
  rfl

/-- The first digit of a number is a zero only if the number is zero. -/
theorem head?_digitChars
    (some : n ≠ 0) :
    (digitChars n).head? ≠ .some '0' := by
  unfold digitChars
  induction n using Nat.strong_induction_on with
  | _ n ih =>
      rw [Nat.toDigits_eq_if (by norm_num)]
      split
      next small =>
        intro zero
        have first : n.digitChar = '0' := Option.some.inj zero
        interval_cases n <;> simp_all
      next large =>
        have more := ih (n / 10) (by omega) (by omega)
        rwa [List.head?_append_of_ne_nil _ (List.length_pos_iff.mp Nat.length_toDigits_pos)]

end Digits

section Literals

variable {whole fraction text : List Char} {x : Float}

/-- Digits that can stand before a point: there are some, and no zero stands before another. -/
def IsWhole (whole : List Char) : Prop :=
  (∀ digit ∈ whole, digit.isDigit = true) ∧ whole ≠ [] ∧
    (whole.length ≤ 1 ∨ whole.head? ≠ some '0')

/-- A whole number is spelled without a spare zero in front. -/
theorem not_spare
    (plain : IsWhole whole) :
    (whole.isEmpty || (whole.length > 1 && whole.head? == some '0')) = false := by
  obtain ⟨_, nonempty, first⟩ := plain
  rw [List.isEmpty_eq_false_iff.mpr nonempty, Bool.false_or]
  rcases first with short | other
  · rw [decide_eq_false (not_lt.mpr short), Bool.false_and]
  · rw [beq_eq_false_iff_ne.mpr other, Bool.and_false]

/-- Digits without a point are read as a whole number. -/
theorem readMagnitude?_whole
    (plain : IsWhole whole) :
    readMagnitude? whole = some (Float.ofScientific (Json.digitsValue whole) true 0) := by
  unfold readMagnitude?
  rw [List.takeWhile_eq_self_iff.mpr plain.1, List.dropWhile_eq_nil_iff.mpr plain.1]
  simp only [not_spare plain, Bool.false_eq_true, if_false]

/-- Digits with a point are read with so many decimal places. -/
theorem readMagnitude?_fraction
    (plain : IsWhole whole)
    (places : ∀ digit ∈ fraction, digit.isDigit = true)
    (nonempty : fraction ≠ []) :
    readMagnitude? (whole ++ '.' :: fraction) =
      some (Float.ofScientific (Json.digitsValue (whole ++ fraction)) true fraction.length) := by
  have first : (whole ++ '.' :: fraction).takeWhile Char.isDigit = whole := by
    rw [List.takeWhile_append_of_pos plain.1]
    exact List.append_nil whole
  have rest : (whole ++ '.' :: fraction).dropWhile Char.isDigit = '.' :: fraction := by
    rw [List.dropWhile_append_of_pos plain.1]
    rfl
  have digits : (fraction.isEmpty || !fraction.all Char.isDigit) = false := by
    rw [List.isEmpty_eq_false_iff.mpr nonempty, List.all_eq_true.mpr places]
    rfl
  unfold readMagnitude?
  rw [first, rest]
  simp only [not_spare plain, digits, Bool.false_eq_true, if_false]

/-- A decimal without a sign: digits, maybe with a point and digits behind it. -/
def IsMagnitude (text : List Char) : Prop :=
  ∃ whole behind, text = whole ++ behind ∧ IsWhole whole ∧
    (behind = [] ∨
      ∃ fraction, behind = '.' :: fraction ∧ fraction ≠ [] ∧
        ∀ digit ∈ fraction, digit.isDigit = true)

/-- A decimal without a sign is what is read as a magnitude. -/
theorem isMagnitude_iff :
    IsMagnitude text ↔ ∃ x, readMagnitude? text = some x := by
  constructor
  · rintro ⟨whole, _, rfl, plain, rfl | ⟨fraction, rfl, nonempty, digits⟩⟩
    · rw [List.append_nil]
      exact ⟨_, readMagnitude?_whole plain⟩
    · exact ⟨_, readMagnitude?_fraction plain digits nonempty⟩
  · rintro ⟨x, read⟩
    have digits : ∀ digit ∈ text.takeWhile Char.isDigit, digit.isDigit = true :=
      fun digit member => List.mem_takeWhile_imp member
    refine ⟨_, _, (List.takeWhile_append_dropWhile (p := Char.isDigit)).symm, ?_⟩
    unfold readMagnitude? at read
    simp only at read
    generalize text.takeWhile Char.isDigit = whole at read digits
    generalize text.dropWhile Char.isDigit = rest at read
    split at read
    next => cases read
    next spare =>
      rw [Bool.not_eq_true, Bool.or_eq_false_iff, Bool.and_eq_false_iff, decide_eq_false_iff_not,
        not_lt, beq_eq_false_iff_ne] at spare
      refine ⟨⟨digits, List.isEmpty_eq_false_iff.mp spare.1, spare.2⟩, ?_⟩
      split at read
      next => exact .inl rfl
      next fraction =>
        split at read
        next => cases read
        next more =>
          rw [Bool.not_eq_true, Bool.or_eq_false_iff, Bool.not_eq_false', List.all_eq_true] at more
          exact .inr ⟨fraction, rfl, List.isEmpty_eq_false_iff.mp more.1, more.2⟩
      next => cases read

/-- What is read as a magnitude begins with a digit and holds no blank. -/
theorem shape_of_readMagnitude?
    (read : readMagnitude? text = some x) :
    (∃ digit rest, text = digit :: rest ∧ digit.isDigit = true) ∧ ' ' ∉ text := by
  have noBlank : ∀ {part : List Char}, (∀ digit ∈ part, digit.isDigit = true) → ' ' ∉ part :=
    fun all member => absurd (all ' ' member) (by decide)
  obtain ⟨whole, behind, rfl, ⟨digits, nonempty, _⟩, tail⟩ := isMagnitude_iff.mpr ⟨x, read⟩
  constructor
  · obtain ⟨digit, more, rfl⟩ := List.exists_cons_of_ne_nil nonempty
    exact ⟨digit, more ++ behind, rfl, digits digit List.mem_cons_self⟩
  · rw [List.mem_append]
    rintro (inWhole | inBehind)
    · exact noBlank digits inWhole
    · rcases tail with rfl | ⟨fraction, rfl, _, places⟩
      · cases inBehind
      · rcases List.mem_cons.mp inBehind with dot | inFraction
        · cases dot
        · exact noBlank places inFraction

/-- A magnitude is a factor. -/
theorem readFactor?_of_magnitude
    (read : readMagnitude? text = some x) :
    readFactor? text = some x := by
  obtain ⟨⟨digit, rest, rfl, isDigit⟩, _⟩ := shape_of_readMagnitude? read
  have other : digit :: rest ≠ "Math.PI".toList := by
    intro same
    obtain ⟨rfl, _⟩ := List.cons.inj (same.trans (by rfl : _ = 'M' :: "ath.PI".toList))
    cases isDigit
  rw [readFactor?, if_neg other, read]

/-- A magnitude is an expression. -/
theorem readExpression?_of_magnitude
    (read : readMagnitude? text = some x) :
    readExpression? text = some x := by
  have factor := readFactor?_of_magnitude read
  obtain ⟨⟨digit, rest, rfl, isDigit⟩, noBlank⟩ := shape_of_readMagnitude? read
  unfold readExpression?
  rw [List.splitOn_eq_singleton noBlank]
  show readSigned? (digit :: rest) = some x
  unfold readSigned?
  split
  next same =>
    obtain ⟨rfl, _⟩ := List.cons.inj same
    cases isDigit
  next => exact factor

/-- A magnitude with a sign is an expression. -/
theorem readExpression?_of_negated
    (read : readMagnitude? text = some x) :
    readExpression? ('-' :: text) = some (-x) := by
  have noBlank : ' ' ∉ '-' :: text := by
    rw [List.mem_cons, not_or]
    exact ⟨by decide, (shape_of_readMagnitude? read).2⟩
  unfold readExpression?
  rw [List.splitOn_eq_singleton noBlank]
  show (readFactor? text).map (fun x => -x) = some (-x)
  rw [readFactor?_of_magnitude read, Option.map_some]

end Literals

section Numbers

variable {x : Float}

/-- Finite doubles that have the same value are the same, unless the value is zero. -/
theorem eq_of_real_eq
    {x y : Float}
    (first : x.isFinite = true)
    (second : y.isFinite = true)
    (same : real x = real y)
    (some : real x ≠ 0) :
    x = y := by
  have equal := (beq_iff_real first second).mpr same
  rw [beq_eq] at equal
  rcases same_of_beq equal with unpackedSame | ⟨sign, _, zero, _⟩
  · rw [← packed_unpacked x, unpackedSame, packed_unpacked]
  · refine absurd ?_ some
    rw [real, zero]
    rfl

/-- A whole number is read as the double nearest to it. -/
theorem exists_read_whole
    {whole : List Char}
    (plain : IsWhole whole) :
    ∃ y, readMagnitude? whole = some y ∧ RoundsTo (Json.digitsValue whole) y := by
  have rounds := ofScientific_roundsTo (Json.digitsValue whole) (Nat.zero_le 2048)
  rw [pow_zero, div_one] at rounds
  exact ⟨_, readMagnitude?_whole plain, rounds⟩

/-- Digits behind a point count as so many places. -/
theorem exists_read_fraction
    {decimal : Digits}
    {whole fraction : List Char}
    (plain : IsWhole whole)
    (places : ∀ digit ∈ fraction, digit.isDigit = true)
    (nonempty : fraction ≠ [])
    (value : Json.digitsValue (whole ++ fraction) = decimal.digits)
    (exponent : decimal.exponent = -(fraction.length : ℤ))
    (least : -2048 ≤ decimal.exponent) :
    ∃ y, readMagnitude? (whole ++ '.' :: fraction) = some y ∧ RoundsTo decimal.value y := by
  have rounds := @ofScientific_roundsTo decimal.digits fraction.length (by omega)
  have quotient : decimal.value = decimal.digits / 10 ^ fraction.length := by
    rw [Digits.value, placed_ten, exponent, zpow_neg, zpow_natCast, div_eq_mul_inv]
  rw [← quotient, ← value] at rounds
  exact ⟨_, readMagnitude?_fraction plain places nonempty, rounds⟩

/-- The point stands before all digits, behind them, or between them. -/
theorem positionalText_eq
    {digits : List Char}
    (nonempty : digits ≠ [])
    (point : ℤ) :
    positionalText false digits point =
      if point ≤ 0 then zeros 1 ++ '.' :: (zeros (-point).toNat ++ digits)
      else if digits.length ≤ point.toNat then digits ++ zeros (point.toNat - digits.length)
      else digits.take point.toNat ++ '.' :: digits.drop point.toNat := by
  have behind : (zeros (-point).toNat ++ digits).isEmpty = false := by
    rw [List.isEmpty_eq_false_iff]
    exact fun empty => nonempty (List.append_eq_nil_iff.mp empty).2
  unfold positionalText
  simp only [List.isEmpty_nil, if_true, Bool.false_eq_true, if_false, List.append_nil, behind]
  by_cases before : point ≤ 0
  · rw [if_pos before, if_pos before]
    rfl
  rw [if_neg before, if_neg before]
  by_cases fits : digits.length ≤ point.toNat
  · rw [if_pos fits, if_pos fits]
  · have more : (digits.drop point.toNat).isEmpty = false := by
      rw [List.isEmpty_eq_false_iff]
      exact fun empty => fits (List.drop_eq_nil_iff.mp empty)
    rw [if_neg fits, if_neg fits, more]
    rfl

/-- The layout of digits is read as the double nearest to their value. -/
theorem exists_read_digitsText
    {decimal : Digits}
    (some : decimal.digits ≠ 0)
    (least : -2048 ≤ decimal.exponent) :
    ∃ y, readMagnitude? (plain.digitsText decimal) = .some y ∧ RoundsTo decimal.value y := by
  have layout : plain.digitsText decimal =
      positionalText false (digitChars decimal.digits)
        (decimal.exponent + (digitChars decimal.digits).length) := by
    simp [Notation.digitsText, plain]
  have digits := isDigit_digitChars decimal.digits
  have first := head?_digitChars some
  have value := digitsValue_digitChars decimal.digits
  have positive : 0 < (digitChars decimal.digits).length := Nat.length_toDigits_pos
  generalize digitChars decimal.digits = chars at layout digits first value positive
  have nonempty : chars ≠ [] := List.length_pos_iff.mp positive
  obtain ⟨point, sum⟩ : ∃ point : ℤ, point = decimal.exponent + chars.length := ⟨_, rfl⟩
  rw [layout, ← sum, positionalText_eq nonempty]
  by_cases before : point ≤ 0
  · obtain ⟨gap, rfl⟩ : ∃ gap : ℕ, point = -(gap : ℤ) := ⟨(-point).toNat, by omega⟩
    rw [if_pos before, neg_neg, Int.toNat_natCast]
    refine exists_read_fraction ⟨isDigit_zeros 1, by decide, .inl le_rfl⟩ ?_ ?_ ?_ ?_ least
    · intro digit member
      exact (List.mem_append.mp member).elim (isDigit_zeros gap digit) (digits digit)
    · exact fun empty => nonempty (List.append_eq_nil_iff.mp empty).2
    · rw [digitsValue_zeros_append, digitsValue_zeros_append, value]
    · rw [List.length_append, zeros, List.length_replicate]
      push_cast
      omega
  rw [if_neg before]
  by_cases fits : chars.length ≤ point.toNat
  · obtain ⟨behind, same⟩ : ∃ behind : ℕ, decimal.exponent = behind :=
      ⟨decimal.exponent.toNat, by omega⟩
    have count : point.toNat - chars.length = behind := by omega
    rw [if_pos fits, count]
    have all : IsWhole (chars ++ zeros behind) := by
      refine ⟨?_, ?_, .inr ?_⟩
      · intro digit member
        exact (List.mem_append.mp member).elim (digits digit) (isDigit_zeros behind digit)
      · exact fun empty => nonempty (List.append_eq_nil_iff.mp empty).1
      · rwa [List.head?_append_of_ne_nil _ nonempty]
    have natural : decimal.value = (Json.digitsValue (chars ++ zeros behind) : ℕ) := by
      rw [digitsValue_append_zeros, value, Digits.value, placed_ten, same, zpow_natCast]
      push_cast
      rfl
    rw [natural]
    exact exists_read_whole all
  · obtain ⟨inside, rfl⟩ : ∃ inside : ℕ, point = inside := ⟨point.toNat, by omega⟩
    rw [if_neg fits, Int.toNat_natCast]
    rw [Int.toNat_natCast] at fits
    refine exists_read_fraction ⟨?_, ?_, .inr ?_⟩ ?_ ?_ ?_ ?_ least
    · exact fun digit member => digits digit (List.mem_of_mem_take member)
    · rw [ne_eq, List.take_eq_nil_iff, not_or]
      exact ⟨by omega, nonempty⟩
    · rwa [List.head?_take, if_neg (by omega)]
    · exact fun digit member => digits digit (List.mem_of_mem_drop member)
    · exact fun empty => fits (List.drop_eq_nil_iff.mp empty)
    · rw [List.take_append_drop, value]
    · rw [List.length_drop]
      omega

/-- The shortest digits of a double are read as its magnitude. -/
theorem exists_read_shortest
    {magnitude : Binary}
    (double : magnitude.IsDouble)
    (fits : magnitude.exponent ≤ 971)
    (some : 0 < magnitude.mantissa)
    (tie : Tie) :
    ∃ y, readMagnitude? (plain.digitsText (magnitude.shortest tie)) = .some y ∧
      y.isFinite = true ∧ real y = magnitude.value := by
  have positive : 0 < magnitude.value := mul_pos (Nat.cast_pos.mpr some) (two_zpow_pos _)
  obtain ⟨named, least⟩ := shortest_spec double fits some tie
  have digits : (magnitude.shortest tie).digits ≠ 0 := by
    intro none
    rw [Digits.value, placed_ten, none, Nat.cast_zero, zero_mul, nearest_zero] at named
    exact positive.ne named
  obtain ⟨y, read, rounds⟩ := exists_read_digitsText digits (by omega)
  obtain ⟨finite, value⟩ := rounds.finite (by
    rw [named, abs_of_pos positive]
    exact (lt_iff_of_canonical double.canonical).mpr fits)
  exact ⟨y, read, finite, value.trans named⟩

/-- The text of a finite double is a magnitude, with a sign or without one, that is read as the
double. -/
theorem exists_read_text
    (finite : x.isFinite = true) :
    ∃ magnitude y, readMagnitude? magnitude = some y ∧
      ((plain.text x).toList = magnitude ∧ y = x ∨
        (plain.text x).toList = '-' :: magnitude ∧ -y = x) := by
  obtain ⟨negative, magnitude, reading, double, fits, value⟩ := reading_of_isFinite finite
  rcases Nat.eq_zero_or_pos magnitude.mantissa with none | some
  · have zero : real x = real 0.0 := by
      rw [value, Binary.value, placed_two, none, Nat.cast_zero, zero_mul, signed_zero,
        real_zero.2]
    obtain ⟨sign, unpackedZero⟩ := beq_zero_iff.mp ((beq_iff_real finite real_zero.1).mpr zero)
    have read : readMagnitude? ['0'] = .some 0.0 := by decide +kernel
    rw [← packed_unpacked x, unpackedZero]
    cases sign with
    | positive => exact ⟨['0'], 0.0, read, .inl ⟨by decide +kernel, rfl⟩⟩
    | negative => exact ⟨['0'], 0.0, read, .inr ⟨by decide +kernel, rfl⟩⟩
  · have positive : 0 < magnitude.value := mul_pos (Nat.cast_pos.mpr some) (two_zpow_pos _)
    obtain ⟨y, read, finiteRead, same⟩ := exists_read_shortest double fits some plain.tie
    have text : (plain.text x).toList =
        if negative then '-' :: plain.digitsText (magnitude.shortest plain.tie)
        else plain.digitsText (magnitude.shortest plain.tie) := by
      rw [Notation.text, reading, String.toList_ofList]
    refine ⟨_, y, read, ?_⟩
    rw [text]
    cases negative with
    | false =>
        exact .inl ⟨rfl, eq_of_real_eq finiteRead finite (same.trans value.symm)
          (same.symm ▸ positive.ne')⟩
    | true =>
        obtain ⟨finiteNeg, opposite⟩ := isFinite_neg finiteRead
        refine .inr ⟨rfl, eq_of_real_eq finiteNeg finite ?_ ?_⟩
        · rw [opposite, same, value]
          rfl
        · rw [opposite, same]
          exact neg_ne_zero.mpr positive.ne'

/-- A finite double is read back from its text. -/
theorem readExpression?_text
    (finite : x.isFinite = true) :
    readExpression? (plain.text x).toList = some x := by
  obtain ⟨magnitude, y, read, ⟨text, same⟩ | ⟨text, same⟩⟩ := exists_read_text finite
  · rw [text, readExpression?_of_magnitude read, same]
  · rw [text, readExpression?_of_negated read, same]

/-- What is infinite or no number has a text that is no expression. -/
theorem readExpression?_text_eq_none
    (infinite : x.isFinite = false) :
    readExpression? (plain.text x).toList = none := by
  have known : (unpacked x).isFinite = false := infinite
  rw [← packed_unpacked x]
  cases read : unpacked x with
  | notANumber => decide +kernel
  | infinity sign => cases sign <;> decide +kernel
  | zero | finite =>
      rw [read] at known
      cases known

/-- A number is read back as what it is rounded to, if that is finite, and else not at all. -/
theorem readExpression?_numberText
    (x : Float)
    (precision : UInt32) :
    readExpression? (numberText x precision).toList =
      if (roundTo x precision).isFinite then some (roundTo x precision) else none := by
  split
  next finite => exact readExpression?_text finite
  next infinite => exact readExpression?_text_eq_none (Bool.not_eq_true _ ▸ infinite)

end Numbers

end SceneMarkup.Markup
