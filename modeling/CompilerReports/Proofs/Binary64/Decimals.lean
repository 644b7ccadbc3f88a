import CompilerReports.Proofs.Binary64.Rounding

/-! Rounding a decimal depends on its value alone. The two shortcuts, for exponents far above and
far below the format, answer what rounding the exact ratio answers; so decimals of one value, with
whatever zeros and exponents they are written, round to one number.
-/

namespace CompilerReports.Binary64

-----------------------------------------------------------------------------------------
-- Equal ratios
-----------------------------------------------------------------------------------------

/-- A ratio is rounded alike when both its parts are multiplied. -/
theorem roundHalfEven_mul_right (numerator denominator : Nat) {factor : Nat} (positive : 0 < factor)
    : roundHalfEven (numerator * factor) (denominator * factor)
      = roundHalfEven numerator denominator := by
  have below : 2 * (numerator % denominator * factor) < denominator * factor
      ↔ 2 * (numerator % denominator) < denominator := by
    rw [← Nat.mul_assoc, Nat.mul_lt_mul_right positive]
  have half : 2 * (numerator % denominator * factor) = denominator * factor
      ↔ 2 * (numerator % denominator) = denominator := by
    rw [← Nat.mul_assoc, Nat.mul_left_inj (Nat.ne_of_gt positive)]
  simp only [roundHalfEven, Nat.mul_div_mul_right _ _ positive, Nat.mul_mod_mul_right, below, half]

/-- Equal ratios are rounded alike, both being brought to one denominator. -/
theorem roundHalfEven_congr {numerator denominator other divisor : Nat} (divides : denominator ≠ 0)
    (divisorDivides : divisor ≠ 0) (same : numerator * divisor = other * denominator)
    : roundHalfEven numerator denominator = roundHalfEven other divisor := by
  rw [← roundHalfEven_mul_right numerator denominator (Nat.pos_of_ne_zero divisorDivides), same,
    Nat.mul_comm denominator, roundHalfEven_mul_right _ _ (Nat.pos_of_ne_zero divides)]

section

variable {numerator denominator other divisor : Nat}

/-- The least power of two above a ratio is told by the ratio. -/
theorem powerAbove_congr (positive : numerator ≠ 0) (divides : denominator ≠ 0)
    (otherPositive : other ≠ 0) (divisorDivides : divisor ≠ 0)
    (same : (numerator : ℚ) / denominator = other / divisor)
    : powerAbove numerator denominator = powerAbove other divisor := by
  obtain ⟨lower, upper⟩ := powerAbove_spec positive divides
  obtain ⟨otherLower, otherUpper⟩ := powerAbove_spec otherPositive divisorDivides
  rw [← same] at otherLower otherUpper
  have under := (zpow_lt_zpow_iff_right₀ one_lt_two).mp (lower.trans_lt otherUpper)
  have above := (zpow_lt_zpow_iff_right₀ one_lt_two).mp (otherLower.trans_lt upper)
  omega

/-- Equal ratios are rounded to the same number. -/
theorem ofRatio_congr (negative : Bool) (divides : denominator ≠ 0) (divisorDivides : divisor ≠ 0)
    (same : (numerator : ℚ) / denominator = other / divisor)
    : ofRatio negative numerator denominator = ofRatio negative other divisor := by
  have cross : numerator * divisor = other * denominator := by
    rw [div_eq_div_iff (by exact_mod_cast divides) (by exact_mod_cast divisorDivides)] at same
    exact_mod_cast same
  by_cases zero : numerator = 0
  · have otherZero : other = 0 := by
      rw [zero, Nat.zero_mul] at cross
      exact (Nat.mul_eq_zero.mp cross.symm).resolve_right divides
    simp only [ofRatio, zero, otherZero, ↓reduceIte]
  · have otherPositive : other ≠ 0 := by
      rintro rfl
      rw [Nat.zero_mul] at cross
      exact (Nat.mul_eq_zero.mp cross).elim zero divisorDivides
    have unit : unitExponent numerator denominator = unitExponent other divisor := by
      rw [unitExponent, unitExponent,
        powerAbove_congr zero divides otherPositive divisorDivides same]
    simp only [ofRatio, zero, otherPositive, ↓reduceIte, unit]
    generalize unitExponent other divisor = exponent
    have up : Nat.pow 2 exponent.toNat ≠ 0 := Nat.ne_of_gt (Nat.two_pow_pos _)
    have significand : roundHalfEven (numerator * Nat.pow 2 (-exponent).toNat)
          (denominator * Nat.pow 2 exponent.toNat)
        = roundHalfEven (other * Nat.pow 2 (-exponent).toNat)
          (divisor * Nat.pow 2 exponent.toNat) := by
      refine roundHalfEven_congr (Nat.mul_ne_zero divides up) (Nat.mul_ne_zero divisorDivides up) ?_
      rw [Nat.mul_mul_mul_comm, cross, Nat.mul_mul_mul_comm]
    rw [significand]

-----------------------------------------------------------------------------------------
-- Beyond the format
-----------------------------------------------------------------------------------------

/-- A ratio from the 1024th power of two on is infinite. -/
theorem ofRatio_eq_infinite (negative : Bool) (divides : denominator ≠ 0)
    (large : (2 : ℚ) ^ (1024 : Int) ≤ (numerator : ℚ) / denominator)
    : ofRatio negative numerator denominator = .infinite negative := by
  have positive : numerator ≠ 0 := by
    rintro rfl
    have power : (0 : ℚ) < 2 ^ (1024 : Int) := by positivity
    rw [Nat.cast_zero, zero_div] at large
    exact absurd large power.not_ge
  obtain ⟨significand, exponent, parts, fits, -, -, sides⟩ := ofRatio_spec negative positive divides
  rw [parts, ofParts, dif_neg]
  rintro ⟨-, -, most, -⟩
  have filled : ((2 ^ 52 : Nat) : ℚ) = 2 ^ (52 : Int) := by norm_num
  have sum : (52 : Int) + 972 = 1024 := rfl
  have reached := sides.above (2 ^ 52) 972 (by decide) (by decide)
    (by rwa [filled, ← zpow_add₀ two_ne_zero, sum])
  rw [filled] at reached
  exact absurd reached (lt_filled fits (show exponent < 972 by omega)).not_ge

/-- A ratio below a half is rounded to zero. -/
theorem roundHalfEven_eq_zero (divides : denominator ≠ 0)
    (small : (numerator : ℚ) / denominator < 1 / 2)
    : roundHalfEven numerator denominator = 0 := by
  rw [div_lt_div_iff₀ (by exact_mod_cast Nat.pos_of_ne_zero divides) two_pos] at small
  have twice : numerator * 2 < 1 * denominator := by exact_mod_cast small
  have whole : numerator < denominator := by omega
  have below : 2 * numerator < denominator := by omega
  simp only [roundHalfEven, Nat.mod_eq_of_lt whole, Nat.div_eq_of_lt whole, below, true_or,
    ↓reduceIte]

/-- A ratio below half the least number is zero. -/
theorem ofRatio_eq_zero (negative : Bool) (divides : denominator ≠ 0)
    (small : (numerator : ℚ) / denominator < 2 ^ (-1075 : Int))
    : ofRatio negative numerator denominator = zero negative := by
  by_cases positive : numerator = 0
  · simp only [ofRatio, positive, ↓reduceIte]
  obtain ⟨-, least, filled⟩ := unitExponent_spec positive divides
  have unit : unitExponent numerator denominator = -1074 := by
    refine filled.resolve_left fun reached => ?_
    rw [← zpow_add₀ two_ne_zero] at reached
    have := (zpow_lt_zpow_iff_right₀ one_lt_two).mp (reached.trans_lt small)
    omega
  have scaled : denominator * Nat.pow 2 (-1074 : Int).toNat ≠ 0 :=
    Nat.mul_ne_zero divides (Nat.ne_of_gt (Nat.two_pow_pos _))
  have nothing : roundHalfEven (numerator * Nat.pow 2 (-(-1074 : Int)).toNat)
      (denominator * Nat.pow 2 (-1074 : Int).toNat) = 0 := by
    refine roundHalfEven_eq_zero scaled ?_
    have half : (2 : ℚ) ^ (-1075 : Int) = 1 / 2 * 2 ^ (-1074 : Int) := by
      have next : (-1075 : Int) = -1074 - 1 := rfl
      rw [next, zpow_sub_one₀ two_ne_zero, mul_comm, one_div]
    rw [inUnits_eq, div_lt_iff₀ (by positivity), ← half]
    exact small
  have short : (0 : Nat) ≠ Nat.pow 2 53 := by decide
  simp only [ofRatio, positive, ↓reduceIte, unit, nothing, short]
  rfl

end

-----------------------------------------------------------------------------------------
-- Decimals
-----------------------------------------------------------------------------------------

/-- The ratio that a decimal is turned into. -/
theorem decimal_ratio (digits : Nat) (exponent : Int)
    : ((digits * Nat.pow 10 exponent.toNat : Nat) : ℚ) / (Nat.pow 10 (-exponent).toNat : Nat)
      = digits * 10 ^ exponent := by
  rw [ratio_ofPower, Nat.cast_ofNat]

/-- The 309th power of ten lies above the format. -/
theorem two_pow_le_ten_pow
    : (2 : ℚ) ^ (1024 : Int) ≤ 10 ^ (309 : Int) := by
  calc (2 : ℚ) ^ (1024 : Int) = (2 ^ 93) ^ 11 * 2 := by
        rw [← pow_mul, ← pow_succ, ← zpow_natCast]
        rfl
    _ ≤ (10 ^ 28) ^ 11 * 10 := by
        gcongr <;> norm_num
    _ = 10 ^ (309 : Int) := by
        rw [← pow_mul, ← pow_succ, ← zpow_natCast]
        rfl

/-- Below one, a power of ten is less than the power of eight. -/
theorem ten_zpow_le {exponent : Int} (below : exponent ≤ 0)
    : (10 : ℚ) ^ exponent ≤ 2 ^ (3 * exponent) := by
  obtain ⟨k, rfl⟩ : ∃ k : Nat, exponent = -k := ⟨(-exponent).toNat, by omega⟩
  rw [zpow_mul, zpow_neg, zpow_neg, zpow_natCast, zpow_natCast]
  gcongr
  norm_num

/-- Both shortcuts answer what rounding the exact ratio answers. -/
theorem ofDecimal_eq_ofRatio (negative : Bool) {digits : Nat} (positive : digits ≠ 0)
    (exponent : Int)
    : ofDecimal negative digits exponent
      = ofRatio negative (digits * Nat.pow 10 exponent.toNat) (Nat.pow 10 (-exponent).toNat) := by
  have divides : Nat.pow 10 (-exponent).toNat ≠ 0 := Nat.ne_of_gt (Nat.pow_pos (by decide))
  have atLeastOne : (1 : ℚ) ≤ digits := by exact_mod_cast Nat.pos_of_ne_zero positive
  rw [ofDecimal, if_neg positive]
  split
  · rename_i large
    refine (ofRatio_eq_infinite negative divides ?_).symm
    rw [decimal_ratio]
    calc (2 : ℚ) ^ (1024 : Int) ≤ 10 ^ (309 : Int) := two_pow_le_ten_pow
      _ ≤ 10 ^ exponent := zpow_le_zpow_right₀ (by norm_num) large
      _ ≤ digits * 10 ^ exponent := le_mul_of_one_le_left (by positivity) atLeastOne
  · split
    · rename_i small
      refine (ofRatio_eq_zero negative divides ?_).symm
      rw [decimal_ratio]
      have below : (digits : ℚ) < 2 ^ ((digits.log2 : Int) + 1) := by
        exact_mod_cast Nat.lt_log2_self
      calc (digits : ℚ) * 10 ^ exponent
          < 2 ^ ((digits.log2 : Int) + 1) * 10 ^ exponent := by gcongr
        _ ≤ 2 ^ ((digits.log2 : Int) + 1) * 2 ^ (3 * exponent) := by
            gcongr
            exact ten_zpow_le (by omega)
        _ = 2 ^ ((digits.log2 : Int) + 1 + 3 * exponent) := (zpow_add₀ two_ne_zero _ _).symm
        _ ≤ 2 ^ (-1075 : Int) := zpow_le_zpow_right₀ one_le_two small
    · rfl

/-- Decimals of one value are rounded to one number. -/
theorem ofDecimal_congr (negative : Bool) {digits others : Nat} {exponent other : Int}
    (same : (digits : ℚ) * 10 ^ exponent = others * 10 ^ other)
    : ofDecimal negative digits exponent = ofDecimal negative others other := by
  have power : ∀ e : Int, (10 : ℚ) ^ e ≠ 0 := fun e => zpow_ne_zero e (by norm_num)
  by_cases zero : digits = 0
  · have otherZero : others = 0 := by
      rw [zero, Nat.cast_zero, zero_mul] at same
      exact_mod_cast (mul_eq_zero.mp same.symm).resolve_right (power other)
    simp only [ofDecimal, zero, otherZero, ↓reduceIte]
  · have otherPositive : others ≠ 0 := by
      rintro rfl
      rw [Nat.cast_zero, zero_mul] at same
      exact (mul_eq_zero.mp same).elim (fun none => zero (by exact_mod_cast none)) (power exponent)
    have divides : ∀ e : Int, Nat.pow 10 (-e).toNat ≠ 0 := fun e =>
      Nat.ne_of_gt (Nat.pow_pos (by decide))
    rw [ofDecimal_eq_ofRatio negative zero, ofDecimal_eq_ofRatio negative otherPositive]
    refine ofRatio_congr negative (divides exponent) (divides other) ?_
    rw [decimal_ratio, decimal_ratio, same]

end CompilerReports.Binary64
