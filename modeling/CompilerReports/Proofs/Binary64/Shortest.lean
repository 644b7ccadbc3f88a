import CompilerReports.Binary64.Shortest
import CompilerReports.Proofs.Binary64.Decimals

/-! The shortest decimal of a number reads back to the number. The candidates of the search are
tested for that; the exact decimal behind them has the number's own value, which rounding keeps.
-/

namespace CompilerReports.Binary64

-----------------------------------------------------------------------------------------
-- Numbers of the format from their values
-----------------------------------------------------------------------------------------

/-- The format gives each value one pair of parts: of two different exponents the greater one would
have a filled significand, and so a greater value.
-/
theorem parts_unique {significand other : Nat} {exponent unit : Int}
    (canonical : Canonical significand exponent) (fits : other < 2 ^ 53) (least : -1074 ≤ unit)
    (filled : 2 ^ 52 ≤ other ∨ unit = -1074)
    (same : (other : ℚ) * 2 ^ unit = significand * 2 ^ exponent)
    : other = significand ∧ unit = exponent := by
  obtain ⟨ownFits, ownLeast, -, ownFilled⟩ := canonical
  have exceeds : ∀ {small large : Nat} {low high : Int}, small < 2 ^ 53 → low < high
      → 2 ^ 52 ≤ large → (small : ℚ) * 2 ^ low ≠ large * 2 ^ high := by
    intro small large low high under less full
    refine ((lt_filled under less).trans_le ?_).ne
    gcongr
    exact_mod_cast full
  obtain less | rfl | greater := lt_trichotomy unit exponent
  · have full : 2 ^ 52 ≤ significand := ownFilled.resolve_right (by omega)
    exact absurd same (exceeds fits less full)
  · have power : (2 : ℚ) ^ unit ≠ 0 := zpow_ne_zero _ two_ne_zero
    exact ⟨by exact_mod_cast mul_right_cancel₀ power same, rfl⟩
  · have full : 2 ^ 52 ≤ other := filled.resolve_right (by omega)
    exact absurd same.symm (exceeds ownFits greater full)

/-- A ratio with the value of a number is rounded to that number. -/
theorem ofRatio_of_eq (negative : Bool) {numerator denominator significand : Nat} {exponent : Int}
    (canonical : Canonical significand exponent) (positive : significand ≠ 0)
    (divides : denominator ≠ 0)
    (held : (numerator : ℚ) / denominator = significand * 2 ^ exponent)
    : ofRatio negative numerator denominator
      = .finite negative significand exponent canonical := by
  have someNumerator : numerator ≠ 0 := by
    rintro rfl
    have power : (0 : ℚ) < 2 ^ exponent := by positivity
    have value : (0 : ℚ) < significand * 2 ^ exponent :=
      mul_pos (by exact_mod_cast Nat.pos_of_ne_zero positive) power
    rw [← held, Nat.cast_zero, zero_div] at value
    exact lt_irrefl _ value
  obtain ⟨other, unit, parts, fits, least, filled, sides⟩ :=
    ofRatio_spec negative someNumerator divides
  have under := sides.below significand exponent canonical.1 canonical.2.1 held.le
  have above := sides.above significand exponent canonical.1 canonical.2.1 held.ge
  obtain ⟨rfl, rfl⟩ := parts_unique canonical fits least filled (le_antisymm under above)
  rw [parts, ofParts, dif_pos canonical]

/-- A number with the given sign in place of its own. -/
def withSign (negative : Bool) : Binary64 → Binary64
  | .nan => .nan
  | .infinite _ => .infinite negative
  | .finite _ significand exponent canonical => .finite negative significand exponent canonical

theorem ofParts_eq_withSign (negative : Bool) (significand : Nat) (exponent : Int)
    : ofParts negative significand exponent
      = withSign negative (ofParts false significand exponent) := by
  unfold ofParts
  split <;> rfl

theorem ofRatio_eq_withSign (negative : Bool) (numerator denominator : Nat)
    : ofRatio negative numerator denominator
      = withSign negative (ofRatio false numerator denominator) := by
  simp only [ofRatio]
  split
  · rfl
  · split <;> exact ofParts_eq_withSign ..

/-- The sign of a decimal goes to the number and changes nothing else. -/
theorem ofDecimal_eq_withSign (negative : Bool) (digits : Nat) (exponent : Int)
    : ofDecimal negative digits exponent = withSign negative (ofDecimal false digits exponent) := by
  by_cases none : digits = 0
  · simp only [ofDecimal, none, ↓reduceIte]
    rfl
  · rw [ofDecimal_eq_ofRatio _ none, ofDecimal_eq_ofRatio _ none, ofRatio_eq_withSign]

-----------------------------------------------------------------------------------------
-- The decimals that are tried
-----------------------------------------------------------------------------------------

/-- A neighbour is taken only if it reads back. -/
theorem Ratio.ofDecimal_of_neighbour? {value : Ratio} {target : Binary64} {exponent : Int}
    {decimal : Decimal} (taken : value.neighbour? target exponent = some decimal)
    : ofDecimal false decimal.digits decimal.exponent = target := by
  simp only [neighbour?] at taken
  split at taken
  · rename_i below
    rw [Bool.and_eq_true] at below
    obtain rfl := Option.some.inj taken
    exact of_decide_eq_true below.1
  · split at taken
    · rename_i above
      obtain rfl := Option.some.inj taken
      exact of_decide_eq_true above
    · cases taken

/-- The exact decimal has the value of the parts: each half that the value has is a five in the
decimal, with one more decimal place.
-/
theorem exactDecimal_value (significand : Nat) (exponent : Int)
    : ((exactDecimal significand exponent).digits : ℚ)
        * 10 ^ (exactDecimal significand exponent).exponent
      = significand * 2 ^ exponent := by
  simp only [exactDecimal]
  rcases Int.le_total 0 exponent with above | below
  · obtain ⟨k, rfl⟩ := Int.eq_ofNat_of_zero_le above
    simp
  · obtain ⟨k, rfl⟩ : ∃ k : Nat, exponent = -k := ⟨(-exponent).toNat, by omega⟩
    have lower : min (-(k : Int)) 0 = -k := by omega
    have ten : (10 : ℚ) = 2 * 5 := by norm_num
    have fives : (5 : ℚ) ^ k ≠ 0 := by positivity
    rw [lower, zpow_neg, zpow_natCast, zpow_neg, zpow_natCast, ten, mul_pow]
    simp only [neg_neg, Int.toNat_natCast, Int.toNat_neg_natCast, Nat.pow_eq, Nat.pow_zero,
      Nat.mul_one, Nat.cast_mul, Nat.cast_pow, Nat.cast_ofNat]
    field_simp

/-- The exact decimal reads back. -/
theorem ofDecimal_exactDecimal {significand : Nat} {exponent : Int}
    (canonical : Canonical significand exponent) (positive : significand ≠ 0)
    : ofDecimal false (exactDecimal significand exponent).digits
        (exactDecimal significand exponent).exponent
      = .finite false significand exponent canonical := by
  have value := exactDecimal_value significand exponent
  have some : (exactDecimal significand exponent).digits ≠ 0 :=
    Nat.mul_ne_zero (Nat.mul_ne_zero positive (Nat.ne_of_gt (Nat.two_pow_pos _)))
      (Nat.ne_of_gt (Nat.pow_pos (by decide)))
  rw [ofDecimal_eq_ofRatio false some]
  refine ofRatio_of_eq false canonical positive (Nat.ne_of_gt (Nat.pow_pos (by decide))) ?_
  rw [decimal_ratio, value]

/-- The shortest decimal of a positive number reads back to it, under either sign. -/
theorem ofDecimal_shortest (negative : Bool) {significand : Nat} {exponent : Int}
    (canonical : Canonical significand exponent) (positive : significand ≠ 0)
    : ofDecimal negative (shortest significand exponent).digits
        (shortest significand exponent).exponent
      = .finite negative significand exponent canonical := by
  have reads : ofDecimal false (shortest significand exponent).digits
      (shortest significand exponent).exponent
      = .finite false significand exponent canonical := by
    have target : ofParts false significand exponent
        = .finite false significand exponent canonical := dif_pos canonical
    simp only [shortest, target]
    cases found : (List.range 17).findSome? _ with
    | none => exact ofDecimal_exactDecimal canonical positive
    | some decimal =>
        obtain ⟨_, _, taken⟩ := List.exists_of_findSome?_eq_some found
        exact Ratio.ofDecimal_of_neighbour? taken
  rw [ofDecimal_eq_withSign, reads]
  rfl

/-- The shortest decimal of a positive number has a digit that is not zero. -/
theorem shortest_digits_ne_zero {significand : Nat} {exponent : Int}
    (canonical : Canonical significand exponent) (positive : significand ≠ 0)
    : (shortest significand exponent).digits ≠ 0 := by
  intro none
  have reads := ofDecimal_shortest false canonical positive
  rw [ofDecimal, if_pos none, zero, finite.injEq] at reads
  exact positive reads.2.1.symm

end CompilerReports.Binary64
