import ExprLex.Literal.Binary
import Mathlib

namespace ExprLex.Literal.BinaryFormat

variable {format : BinaryFormat} {numerator denominator bits other : Nat} {exact : ℚ}

/-- How many times the least positive number makes up the number with some bits. Behind the largest
finite number the exponents go on. -/
def units (format : BinaryFormat) (bits : Nat) : Nat :=
  match bits / 2 ^ format.fractionBits with
  | 0 => bits
  | exponent + 1 => (2 ^ format.fractionBits + bits % 2 ^ format.fractionBits) * 2 ^ exponent

def value (format : BinaryFormat) (bits : Nat) : ℚ :=
  format.units bits * 2 ^ (2 - 2 ^ (format.exponentBits - 1) - format.fractionBits : ℤ)

/-- Rounding to nearest, ties to even. -/
structure Rounds (format : BinaryFormat) (exact : ℚ) (bits : Nat) : Prop where
  nearest : ∀ other, |exact - format.value bits| ≤ |exact - format.value other|
  even : ∀ other, other ≠ bits → |exact - format.value bits| = |exact - format.value other| →
    Even bits

theorem units_small (small : bits < 2 ^ format.fractionBits) : format.units bits = bits := by
  rw [units, Nat.div_eq_of_lt small]

theorem units_normal {fraction : Nat} (exponent : Nat)
    (small : fraction < 2 ^ format.fractionBits) :
    format.units ((exponent + 1) * 2 ^ format.fractionBits + fraction) =
      (2 ^ format.fractionBits + fraction) * 2 ^ exponent := by
  have quotient : ((exponent + 1) * 2 ^ format.fractionBits + fraction) / 2 ^ format.fractionBits =
      exponent + 1 := by
    rw [mul_comm, Nat.mul_add_div (Nat.two_pow_pos _), Nat.div_eq_of_lt small, add_zero]
  rw [units, quotient]
  dsimp only
  rw [mul_comm (exponent + 1), Nat.mul_add_mod, Nat.mod_eq_of_lt small]

/-- A significand that has been rounded up to the next power of two counts as well. -/
theorem units_place (format : BinaryFormat) {exponent significand : Nat}
    (normal : exponent = 0 ∨ 2 ^ format.fractionBits ≤ significand)
    (le : significand ≤ 2 ^ (format.fractionBits + 1)) :
    format.units (exponent * 2 ^ format.fractionBits + significand) =
      significand * 2 ^ exponent := by
  rw [pow_succ] at le
  rcases Nat.lt_or_ge significand (2 ^ format.fractionBits) with small | large
  · obtain rfl := normal.resolve_right (by omega)
    simpa using units_small small
  · obtain ⟨fraction, rfl⟩ := Nat.exists_eq_add_of_le large
    rw [← add_assoc, ← Nat.succ_mul]
    rcases Nat.lt_or_ge fraction (2 ^ format.fractionBits) with small | full
    · exact units_normal exponent small
    · obtain rfl : fraction = 2 ^ format.fractionBits := by omega
      have next := units_normal (exponent + 1) (Nat.two_pow_pos format.fractionBits)
      rw [add_zero, add_zero] at next
      rw [← Nat.succ_mul, next, pow_succ]
      ring

theorem units_lt_succ (format : BinaryFormat) (bits : Nat) :
    format.units bits < format.units (bits + 1) := by
  obtain ⟨exponent, fraction, small, rfl⟩ : ∃ exponent fraction,
      fraction < 2 ^ format.fractionBits ∧ bits = exponent * 2 ^ format.fractionBits + fraction :=
    ⟨_, _, Nat.mod_lt bits (Nat.two_pow_pos _), (Nat.div_add_mod' bits _).symm⟩
  have double : 2 ^ (format.fractionBits + 1) = 2 * 2 ^ format.fractionBits := by ring
  cases exponent with
  | zero =>
      have next : format.units (0 * 2 ^ format.fractionBits + (fraction + 1)) =
          (fraction + 1) * 2 ^ 0 := format.units_place (.inl rfl) (by omega)
      rw [zero_mul, zero_add] at next ⊢
      rw [units_small small, next]
      omega
  | succ exponent =>
      have next : format.units
          (exponent * 2 ^ format.fractionBits + (2 ^ format.fractionBits + fraction + 1)) =
            (2 ^ format.fractionBits + fraction + 1) * 2 ^ exponent :=
        format.units_place (.inr (by omega)) (by omega)
      rw [units_normal exponent small,
        show (exponent + 1) * 2 ^ format.fractionBits + fraction + 1 =
          exponent * 2 ^ format.fractionBits + (2 ^ format.fractionBits + fraction + 1) by ring, next]
      exact Nat.mul_lt_mul_of_pos_right (Nat.lt_succ_self _) (Nat.two_pow_pos _)

theorem units_strictMono (format : BinaryFormat) : StrictMono format.units :=
  strictMono_nat_of_lt_succ (units_lt_succ format)

theorem units_cases (format : BinaryFormat) (bits place : Nat) :
    2 ^ place ∣ format.units bits ∨
      0 < place ∧ format.units bits < 2 ^ format.fractionBits * 2 ^ place := by
  rcases Nat.eq_zero_or_pos place with rfl | positive
  · exact .inl (by simp)
  · have fraction := Nat.mod_lt bits (Nat.two_pow_pos format.fractionBits)
    rw [units]
    split
    · rename_i zero
      refine .inr ⟨positive, ?_⟩
      have small : bits < 2 ^ format.fractionBits :=
        (Nat.div_eq_zero_iff.mp zero).resolve_left (Nat.two_pow_pos _).ne'
      exact small.trans_le (Nat.le_mul_of_pos_right _ (Nat.two_pow_pos _))
    · rename_i exponent _
      rcases Nat.lt_or_ge exponent place with below | above
      · refine .inr ⟨positive, ?_⟩
        calc (2 ^ format.fractionBits + bits % 2 ^ format.fractionBits) * 2 ^ exponent
            < 2 ^ format.fractionBits * 2 * 2 ^ exponent :=
              Nat.mul_lt_mul_of_pos_right (by omega) (Nat.two_pow_pos _)
          _ = 2 ^ format.fractionBits * 2 ^ (exponent + 1) := by ring
          _ ≤ 2 ^ format.fractionBits * 2 ^ place :=
              Nat.mul_le_mul_left _ (Nat.pow_le_pow_right two_pos below)
      · exact .inl (Dvd.dvd.mul_left (pow_dvd_pow 2 above) _)

theorem value_strictMono (format : BinaryFormat) : StrictMono format.value := by
  intro bits other less
  have more : (format.units bits : ℚ) < format.units other :=
    Nat.cast_lt.mpr (format.units_strictMono less)
  exact mul_lt_mul_of_pos_right more (zpow_pos two_pos _)

theorem Rounds.unique (rounds : format.Rounds exact bits) (roundsToo : format.Rounds exact other) :
    bits = other := by
  -- Two numbers that are equally near have no number between them, so one of them is odd.
  wlog less : bits < other generalizing bits other with wanted
  · rcases lt_trichotomy bits other with first | same | second
    · exact wanted rounds roundsToo first
    · exact same
    · exact (wanted roundsToo rounds second).symm
  have tie := le_antisymm (rounds.nearest other) (roundsToo.nearest bits)
  have even := rounds.even other less.ne' tie
  have evenToo := roundsToo.even bits less.ne tie.symm
  have between : bits + 1 < other := by
    have apart : bits + 1 ≠ other := by
      rintro rfl
      exact (Nat.even_add_one.mp evenToo) even
    omega
  have low := format.value_strictMono (Nat.lt_succ_self bits)
  have high := format.value_strictMono between
  have near := rounds.nearest (bits + 1)
  rw [Nat.succ_eq_add_one] at low
  rcases abs_eq_abs.mp tie with same | middle
  · linarith
  · refine absurd near (not_le.mpr ?_)
    rw [abs_of_pos (show 0 < exact - format.value bits by linarith), abs_lt]
    constructor <;> linarith

theorem Rounds.iff_eq (rounds : format.Rounds exact bits) (other : Nat) :
    format.Rounds exact other ↔ other = bits :=
  ⟨fun roundsToo => roundsToo.unique rounds, fun same => same ▸ rounds⟩

theorem roundedQuotient_cases (numerator denominator : Nat) :
    (roundedQuotient numerator denominator = numerator / denominator ∧
      2 * (numerator % denominator) ≤ denominator ∧
      (2 * (numerator % denominator) = denominator → Even (numerator / denominator))) ∨
    (roundedQuotient numerator denominator = numerator / denominator + 1 ∧
      denominator ≤ 2 * (numerator % denominator) ∧
      (2 * (numerator % denominator) = denominator → Even (numerator / denominator + 1))) := by
  rw [roundedQuotient]
  split
  · rename_i up
    simp only [Bool.or_eq_true, decide_eq_true_eq, Bool.and_eq_true, beq_iff_eq] at up
    refine .inr ⟨rfl, by omega, fun tie => ?_⟩
    exact Nat.even_add_one.mpr (Nat.not_even_iff.mpr (by omega))
  · rename_i down
    simp only [Bool.or_eq_true, decide_eq_true_eq, Bool.and_eq_true, beq_iff_eq] at down
    refine .inl ⟨rfl, by omega, fun tie => ?_⟩
    exact Nat.even_iff.mpr (by omega)

/-- The quotient is rounded to the nearest whole number, and to an even one in the middle. -/
theorem roundedQuotient_nearest (positive : 0 < denominator) :
    |(numerator : ℚ) / denominator - roundedQuotient numerator denominator| ≤ 1 / 2 ∧
      (|(numerator : ℚ) / denominator - roundedQuotient numerator denominator| = 1 / 2 →
        Even (roundedQuotient numerator denominator)) := by
  have real : (0 : ℚ) < denominator := Nat.cast_pos.mpr positive
  obtain ⟨part, same⟩ : ∃ part : ℚ, part = (numerator % denominator : ℕ) / denominator := ⟨_, rfl⟩
  have split : (numerator : ℚ) / denominator = (numerator / denominator : ℕ) + part := by
    rw [same, div_eq_iff real.ne', add_mul, div_mul_cancel₀ _ real.ne']
    exact_mod_cast (Nat.div_add_mod' numerator denominator).symm
  have least : 0 ≤ part := by rw [same]; positivity
  have most : part < 1 := by
    rw [same, div_lt_one real]
    exact_mod_cast Nat.mod_lt numerator positive
  have low : part ≤ 1 / 2 ↔ 2 * (numerator % denominator) ≤ denominator := by
    rw [same, div_le_div_iff₀ real two_pos, one_mul, mul_comm]
    exact_mod_cast Iff.rfl
  have high : 1 / 2 ≤ part ↔ denominator ≤ 2 * (numerator % denominator) := by
    rw [same, div_le_div_iff₀ two_pos real, one_mul, mul_comm]
    exact_mod_cast Iff.rfl
  rw [split]
  rcases roundedQuotient_cases numerator denominator with ⟨down, le, even⟩ | ⟨up, ge, even⟩
  · rw [down, add_sub_cancel_left, abs_of_nonneg least]
    exact ⟨low.mpr le, fun tie => even (le_antisymm le (high.mp tie.ge))⟩
  · rw [up, Nat.cast_add, Nat.cast_one, add_sub_add_left_eq_sub, abs_of_neg (by linarith)]
    have half := high.mpr ge
    exact ⟨by linarith, fun tie => even (le_antisymm (low.mp (by linarith)) ge)⟩

theorem nearest_whole {x : ℚ} {whole : ℕ} (near : |x - whole| ≤ 1 / 2) (other : ℕ) :
    |x - whole| ≤ |x - other| ∧
      (other ≠ whole → |x - whole| = |x - other| → |x - whole| = 1 / 2) := by
  by_cases same : other = whole
  · simp [same]
  · have apart : (1 : ℚ) ≤ |(other : ℚ) - whole| := by
      have different : (other : ℤ) - whole ≠ 0 := sub_ne_zero.mpr (Nat.cast_injective.ne same)
      exact_mod_cast Int.one_le_abs different
    have triangle := abs_sub_le (other : ℚ) x whole
    rw [abs_sub_comm (other : ℚ) x] at triangle
    exact ⟨by linarith, fun _ tie => le_antisymm near (by linarith)⟩

theorem scaled_spec {place : ℤ} {high low : Nat} (positive : 0 < denominator)
    (scaling : scaled numerator denominator place = (high, low)) :
    0 < low ∧ (high : ℚ) / low = (numerator : ℚ) / denominator / 2 ^ place := by
  cases place with
  | ofNat exponent =>
      cases scaling
      refine ⟨Nat.mul_pos positive (Nat.two_pow_pos exponent), ?_⟩
      rw [Nat.cast_mul, Int.ofNat_eq_natCast, zpow_natCast, div_div]
      norm_cast
  | negSucc exponent =>
      cases scaling
      refine ⟨positive, ?_⟩
      rw [Nat.cast_mul, zpow_negSucc, div_inv_eq_mul, div_mul_eq_mul_div]
      norm_cast

theorem minExponent_eq (format : BinaryFormat) :
    format.minExponent = 2 - 2 ^ (format.exponentBits - 1) - format.fractionBits := by
  rw [minExponent, twoTo]
  rfl

theorem log2_bounds {n : Nat} (positive : 0 < n) :
    (2 : ℚ) ^ n.log2 ≤ n ∧ (n : ℚ) < 2 ^ (n.log2 + 1) :=
  ⟨by exact_mod_cast Nat.log2_self_le positive.ne', by exact_mod_cast Nat.lt_log2_self⟩

theorem guess_bounds (counted : 0 < numerator) (positive : 0 < denominator) {guess : ℤ}
    {fractionBits : Nat}
    (same : guess = (Nat.log2 numerator : ℤ) - Nat.log2 denominator - fractionBits) :
    (numerator : ℚ) / denominator / 2 ^ guess < 2 * 2 ^ fractionBits ∧
      2 ^ fractionBits ≤ 2 * ((numerator : ℚ) / denominator / 2 ^ guess) := by
  obtain ⟨low, high⟩ := log2_bounds counted
  obtain ⟨lowToo, highToo⟩ := log2_bounds positive
  have real : (0 : ℚ) < denominator := Nat.cast_pos.mpr positive
  have step : (2 : ℚ) ^ guess = 2 ^ numerator.log2 / 2 ^ denominator.log2 / 2 ^ fractionBits := by
    simp only [same, zpow_sub₀ (two_ne_zero' ℚ), zpow_natCast]
  obtain ⟨upper, upper_eq⟩ : ∃ upper : ℚ, upper = numerator / 2 ^ numerator.log2 := ⟨_, rfl⟩
  obtain ⟨lower, lower_eq⟩ : ∃ lower : ℚ, lower = 2 ^ denominator.log2 / denominator := ⟨_, rfl⟩
  have product : (numerator : ℚ) / denominator / 2 ^ guess = upper * lower * 2 ^ fractionBits := by
    rw [step, upper_eq, lower_eq]
    field_simp
  have one_le : 1 ≤ upper := by rwa [upper_eq, one_le_div (by positivity)]
  have lt_two : upper < 2 := by
    rwa [upper_eq, div_lt_iff₀ (by positivity), ← pow_succ']
  have le_one : lower ≤ 1 := by rwa [lower_eq, div_le_one real]
  have half_lt : 1 < 2 * lower := by
    rwa [lower_eq, ← mul_div_assoc, ← pow_succ', one_lt_div real]
  rw [product]
  constructor
  · refine mul_lt_mul_of_pos_right ?_ (by positivity)
    nlinarith
  · rw [← mul_assoc]
    refine le_mul_of_one_le_left (by positivity) ?_
    nlinarith

/-- Before it is kept above the least one, the place is such that the significand has one bit more
than there are fraction bits. -/
theorem placeExponent_eq (format : BinaryFormat) (counted : 0 < numerator)
    (positive : 0 < denominator) : ∃ natural : ℤ,
      format.placeExponent numerator denominator = max natural format.minExponent ∧
      (numerator : ℚ) / denominator / 2 ^ natural < 2 ^ (format.fractionBits + 1) ∧
      2 ^ format.fractionBits ≤ (numerator : ℚ) / denominator / 2 ^ natural := by
  rw [placeExponent]
  dsimp only
  generalize guessed :
    (Nat.log2 numerator : ℤ) - Nat.log2 denominator - format.fractionBits = guess
  obtain ⟨upper, lower⟩ := guess_bounds counted positive guessed.symm
  obtain ⟨pair, scaling⟩ : ∃ pair, scaled numerator denominator guess = pair := ⟨_, rfl⟩
  obtain ⟨above, below⟩ := scaled_spec positive scaling
  have fits : pair.1 < pair.2 * twoTo format.fractionBits ↔
      (numerator : ℚ) / denominator / 2 ^ guess < 2 ^ format.fractionBits := by
    rw [← below, div_lt_iff₀ (Nat.cast_pos.mpr above), mul_comm (2 ^ format.fractionBits)]
    exact_mod_cast Iff.rfl
  refine ⟨_, rfl, ?_⟩
  rw [scaling]
  split
  · rename_i short
    rw [zpow_sub_one₀ two_ne_zero, div_mul_eq_div_div, div_inv_eq_mul, pow_succ]
    have less := fits.mp short
    exact ⟨by linarith, by linarith⟩
  · rename_i long
    rw [pow_succ']
    exact ⟨upper, not_lt.mp (mt fits.mpr long)⟩

theorem placeExponent_spec (format : BinaryFormat) (counted : 0 < numerator)
    (positive : 0 < denominator) :
    (numerator : ℚ) / denominator / 2 ^ format.placeExponent numerator denominator <
        2 ^ (format.fractionBits + 1) ∧
      (format.minExponent < format.placeExponent numerator denominator →
        2 ^ format.fractionBits ≤
          (numerator : ℚ) / denominator / 2 ^ format.placeExponent numerator denominator) := by
  obtain ⟨natural, found, high, low⟩ := format.placeExponent_eq counted positive
  have nonneg : 0 ≤ (numerator : ℚ) / denominator := by positivity
  rw [found]
  constructor
  · refine lt_of_le_of_lt ?_ high
    exact div_le_div_of_nonneg_left nonneg (by positivity)
      (zpow_le_zpow_right₀ one_le_two (le_max_left _ _))
  · intro above
    rwa [max_eq_left (by omega)]

theorem value_eq (format : BinaryFormat) (bits : Nat) :
    format.value bits = format.units bits * 2 ^ format.minExponent := by
  rw [value, minExponent_eq]

theorem nearest_zero (format : BinaryFormat) (denominator : Nat) :
    format.Rounds ((0 : Nat) / denominator) (format.nearest 0 denominator) where
  nearest := by
    intro other
    rw [nearest, if_pos rfl, value, units_small (Nat.two_pow_pos _)]
    simp
  even := by
    intro other _ _
    rw [nearest, if_pos rfl]
    exact Even.zero

/-- The significand of the nearest number, and the place of its last bit above the least one. -/
theorem exists_nearest (format : BinaryFormat) (counted : 0 < numerator)
    (positive : 0 < denominator) : ∃ place significand : Nat, ∃ scaled : ℚ,
      (numerator : ℚ) / denominator = scaled * 2 ^ place * 2 ^ format.minExponent ∧
      format.nearest numerator denominator = place * 2 ^ format.fractionBits + significand ∧
      (|scaled - significand| ≤ 1 / 2 ∧ (|scaled - significand| = 1 / 2 → Even significand)) ∧
      scaled < 2 ^ (format.fractionBits + 1) ∧ (0 < place → 2 ^ format.fractionBits ≤ scaled) := by
  obtain ⟨upper, lower⟩ := placeExponent_spec format counted positive
  have least : format.minExponent ≤ format.placeExponent numerator denominator := le_max_right _ _
  rw [nearest, if_neg counted.ne']
  generalize format.placeExponent numerator denominator = exponent at upper lower least
  obtain ⟨pair, scaling⟩ : ∃ pair, scaled numerator denominator exponent = pair := ⟨_, rfl⟩
  obtain ⟨above, below⟩ := scaled_spec positive scaling
  obtain ⟨place, rfl⟩ := Int.le.dest least
  refine ⟨place, roundedQuotient pair.1 pair.2, pair.1 / pair.2, ?_, ?_,
    roundedQuotient_nearest above, ?_, ?_⟩
  · rw [below, mul_assoc, mul_comm (2 ^ place), ← zpow_natCast, ← zpow_add₀ two_ne_zero,
      div_mul_cancel₀ _ (by positivity)]
  · dsimp only
    rw [scaling, add_sub_cancel_left, Int.toNat_natCast]
    rfl
  · rwa [below]
  · intro more
    rw [below]
    exact lower (by omega)

theorem units_nearest {place significand : Nat} {scaled : ℚ} (near : |scaled - significand| ≤ 1 / 2)
    (lower : 0 < place → 2 ^ format.fractionBits ≤ scaled) (other : Nat) :
    |scaled - significand| * 2 ^ place ≤ |scaled * 2 ^ place - format.units other| ∧
      (format.units other ≠ significand * 2 ^ place →
        |scaled - significand| * 2 ^ place = |scaled * 2 ^ place - format.units other| →
          |scaled - significand| = 1 / 2) := by
  have step : (0 : ℚ) < 2 ^ place := by positivity
  rcases format.units_cases other place with ⟨k, multiple⟩ | ⟨above, small⟩
  · -- The other number has no bits below the place, so only significands are compared.
    have scale : |scaled * 2 ^ place - format.units other| = |scaled - k| * 2 ^ place := by
      rw [multiple, Nat.cast_mul, Nat.cast_pow, Nat.cast_ofNat, mul_comm (2 ^ place) (k : ℚ),
        ← sub_mul, abs_mul, abs_of_pos step]
    obtain ⟨le, tie⟩ := nearest_whole near k
    rw [scale]
    refine ⟨mul_le_mul_of_nonneg_right le step.le, fun different same => ?_⟩
    refine tie ?_ (mul_right_cancel₀ step.ne' same)
    rintro rfl
    exact different (multiple.trans (mul_comm _ _))
  · -- The other number is shorter than the significand at this place, and so farther away.
    have bound := lower above
    obtain ⟨le, -⟩ := nearest_whole near (2 ^ format.fractionBits)
    rw [Nat.cast_pow, Nat.cast_ofNat] at le
    rw [abs_of_nonneg (sub_nonneg.mpr bound)] at le
    have less : (format.units other : ℚ) < 2 ^ format.fractionBits * 2 ^ place := by
      exact_mod_cast small
    have farther : |scaled - significand| * 2 ^ place < |scaled * 2 ^ place - format.units other| :=
      calc |scaled - significand| * 2 ^ place
          ≤ (scaled - 2 ^ format.fractionBits) * 2 ^ place := mul_le_mul_of_nonneg_right le step.le
        _ < scaled * 2 ^ place - format.units other := by linarith
        _ ≤ |scaled * 2 ^ place - format.units other| := le_abs_self _
    exact ⟨farther.le, fun _ same => absurd same farther.ne⟩

/-- The bits that are found are those of the nearest number. -/
theorem nearest_rounds (format : BinaryFormat) (wide : 0 < format.fractionBits) (numerator : Nat)
    (positive : 0 < denominator) :
    format.Rounds (numerator / denominator) (format.nearest numerator denominator) := by
  rcases Nat.eq_zero_or_pos numerator with rfl | counted
  · exact format.nearest_zero denominator
  obtain ⟨place, significand, scaled, exact, found, ⟨near, even⟩, upper, lower⟩ :=
    format.exists_nearest counted positive
  obtain ⟨low, high⟩ := abs_le.mp near
  have normal : place = 0 ∨ 2 ^ format.fractionBits ≤ significand := by
    refine (Nat.eq_zero_or_pos place).imp_right fun above => Nat.lt_succ_iff.mp ?_
    have bound := lower above
    exact_mod_cast (by linarith : (2 : ℚ) ^ format.fractionBits < significand + 1)
  have le : significand ≤ 2 ^ (format.fractionBits + 1) := by
    refine Nat.lt_succ_iff.mp ?_
    exact_mod_cast (by linarith : (significand : ℚ) < 2 ^ (format.fractionBits + 1) + 1)
  have units := format.units_place normal le
  have unit : (0 : ℚ) < 2 ^ format.minExponent := by positivity
  have distance (other : Nat) : |(numerator : ℚ) / denominator - format.value other| =
      |scaled * 2 ^ place - format.units other| * 2 ^ format.minExponent := by
    rw [exact, value_eq, ← sub_mul, abs_mul, abs_of_pos unit]
  have own : |scaled * 2 ^ place - format.units (place * 2 ^ format.fractionBits + significand)| =
      |scaled - significand| * 2 ^ place := by
    rw [units, Nat.cast_mul, Nat.cast_pow, Nat.cast_ofNat, ← sub_mul, abs_mul,
      abs_of_pos (show (0 : ℚ) < 2 ^ place by positivity)]
  rw [found]
  constructor
  case nearest =>
    intro other
    rw [distance, distance, own]
    exact mul_le_mul_of_nonneg_right (units_nearest near lower other).1 unit.le
  case even =>
    intro other different tie
    rw [distance, distance, own] at tie
    have apart : format.units other ≠ significand * 2 ^ place :=
      units ▸ format.units_strictMono.injective.ne different
    have middle := (units_nearest near lower other).2 apart (mul_right_cancel₀ unit.ne' tie)
    exact (Even.mul_left (even_two.pow_of_ne_zero wide.ne') place).add (even middle)

end ExprLex.Literal.BinaryFormat
