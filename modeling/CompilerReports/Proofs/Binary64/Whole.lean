import CompilerReports.Binary64.Rounding

/-! Whole numbers that binary64 holds exactly. Up to the 53rd power of two every natural number
is its own nearest binary64 number, so it can be read back from the number it was turned into.
-/

namespace CompilerReports.Binary64

/-- Nothing is rounded off a whole number. -/
theorem roundHalfEven_one (n : Nat)
    : roundHalfEven n 1 = n := by
  simp [roundHalfEven, Nat.mod_one]

/-- The power of two above a positive whole number is told by its binary length. -/
theorem powerAbove_one {n : Nat} (positive : n ≠ 0)
    : powerAbove n 1 = (n.log2 : Int) + 1 := by
  have below : Nat.pow 2 n.log2 ≤ n := Nat.log2_self_le positive
  have reached : reachesPower n 1 (n.log2 : Int) = true := by
    simpa [reachesPower] using below
  have one : Nat.log2 1 = 0 := by decide
  simp only [powerAbove, one, Int.ofNat_zero, Int.sub_zero, reached, ↓reduceIte]

/-- Shifted by what its binary length falls short, a number fills the significand exactly. -/
theorem scaled_bounds {n : Nat} (positive : n ≠ 0) (short : n.log2 ≤ 52)
    : Nat.pow 2 52 ≤ n * Nat.pow 2 (52 - n.log2)
      ∧ n * Nat.pow 2 (52 - n.log2) < Nat.pow 2 53 := by
  have scale : 0 < Nat.pow 2 (52 - n.log2) := Nat.two_pow_pos _
  have lower : Nat.pow 2 n.log2 * Nat.pow 2 (52 - n.log2) = Nat.pow 2 52 := by
    calc Nat.pow 2 n.log2 * Nat.pow 2 (52 - n.log2)
        = Nat.pow 2 (n.log2 + (52 - n.log2)) := (Nat.pow_add 2 _ _).symm
      _ = Nat.pow 2 52 := congrArg (Nat.pow 2) (Nat.add_sub_cancel' short)
  have upper : Nat.pow 2 (n.log2 + 1) * Nat.pow 2 (52 - n.log2) = Nat.pow 2 53 := by
    calc Nat.pow 2 (n.log2 + 1) * Nat.pow 2 (52 - n.log2)
        = Nat.pow 2 n.log2 * 2 * Nat.pow 2 (52 - n.log2) := rfl
      _ = Nat.pow 2 n.log2 * Nat.pow 2 (52 - n.log2) * 2 := Nat.mul_right_comm ..
      _ = Nat.pow 2 52 * 2 := congrArg (· * 2) lower
      _ = Nat.pow 2 53 := rfl
  have least : Nat.pow 2 n.log2 ≤ n := Nat.log2_self_le positive
  have greatest : n < Nat.pow 2 (n.log2 + 1) := Nat.lt_log2_self
  constructor
  · rw [← lower]
    exact Nat.mul_le_mul_right _ least
  · rw [← upper]
    exact Nat.mul_lt_mul_of_pos_right greatest scale

/-- A number that fits the significand keeps all its digits. -/
theorem ofNat_eq_ofParts {n : Nat} (positive : n ≠ 0) (short : n.log2 ≤ 52)
    : ofNat n = ofParts false (n * Nat.pow 2 (52 - n.log2)) ((n.log2 : Int) - 52) := by
  have unit : unitExponent n 1 = (n.log2 : Int) - 52 := by
    rw [unitExponent, powerAbove_one positive]
    omega
  have up : (-((n.log2 : Int) - 52)).toNat = 52 - n.log2 := by omega
  have down : ((n.log2 : Int) - 52).toNat = 0 := by omega
  have one : 1 * Nat.pow 2 0 = 1 := rfl
  have fits : n * Nat.pow 2 (52 - n.log2) ≠ Nat.pow 2 53 :=
    Nat.ne_of_lt (scaled_bounds positive short).2
  simp only [ofNat, ofRatio, positive, ↓reduceIte, unit, up, down, one, roundHalfEven_one, fits]

/-- A natural number up to the 53rd power of two is read back from its binary64 number. -/
theorem toNat?_ofNat {n : Nat} (exact : n ≤ Nat.pow 2 53)
    : (ofNat n).toNat? = some n := by
  by_cases top : n = Nat.pow 2 53
  · rw [top]
    decide
  by_cases zero : n = 0
  · rw [zero]
    simp only [ofNat, ofRatio, Binary64.zero, toNat?, wholeMagnitude?, ↓reduceIte, Bool.false_and,
      Bool.false_eq_true, Nat.zero_mod, Nat.zero_div, Nat.zero_mul]
  have below : n < Nat.pow 2 53 := Nat.lt_of_le_of_ne exact top
  have short : n.log2 ≤ 52 := Nat.le_of_lt_succ ((Nat.log2_lt zero).mpr below)
  obtain ⟨lower, upper⟩ := scaled_bounds zero short
  have canonical : Canonical (n * Nat.pow 2 (52 - n.log2)) ((n.log2 : Int) - 52) :=
    ⟨upper, by omega, by omega, Or.inl lower⟩
  have scale : 0 < Nat.pow 2 (52 - n.log2) := Nat.two_pow_pos _
  have up : (-((n.log2 : Int) - 52)).toNat = 52 - n.log2 := by omega
  have down : ((n.log2 : Int) - 52).toNat = 0 := by omega
  have one : Nat.pow 2 0 = 1 := rfl
  rw [ofNat_eq_ofParts zero short, ofParts, dif_pos canonical]
  simp only [toNat?, wholeMagnitude?, Bool.false_and, Bool.false_eq_true, ↓reduceIte, up, down,
    one, Nat.mul_mod_left, Nat.mul_div_cancel n scale, Nat.mul_one]

end CompilerReports.Binary64
