import CompilerReports.Binary64.Rounding
import CompilerReports.Proofs.Binary64.Value

/-! What rounding a positive ratio comes to. The rounded number lies on the same side of every
number of the format as the ratio does: rounding never passes a number that the format holds. So a
ratio that the format holds is kept as it is, and a number of the format that bounds a ratio bounds
the rounded number too.
-/

namespace CompilerReports.Binary64

variable {numerator denominator : Nat}

-----------------------------------------------------------------------------------------
-- The nearest whole number
-----------------------------------------------------------------------------------------

/-- Rounding to a whole number goes no lower than a whole number below the ratio. -/
theorem le_roundHalfEven (divides : denominator ≠ 0) {n : Nat}
    (below : (n : ℚ) ≤ (numerator : ℚ) / denominator)
    : n ≤ roundHalfEven numerator denominator := by
  have positive : (0 : ℚ) < denominator := by exact_mod_cast Nat.pos_of_ne_zero divides
  rw [le_div_iff₀ positive] at below
  have floor : n ≤ numerator / denominator :=
    (Nat.le_div_iff_mul_le (Nat.pos_of_ne_zero divides)).mpr (by exact_mod_cast below)
  simp only [roundHalfEven]
  split <;> omega

/-- Nor does it go higher than a whole number above the ratio. -/
theorem roundHalfEven_le (divides : denominator ≠ 0) {n : Nat}
    (above : (numerator : ℚ) / denominator ≤ n)
    : roundHalfEven numerator denominator ≤ n := by
  have positive : (0 : ℚ) < denominator := by exact_mod_cast Nat.pos_of_ne_zero divides
  rw [div_le_iff₀ positive] at above
  have whole : numerator ≤ n * denominator := by exact_mod_cast above
  have split := Nat.div_add_mod numerator denominator
  simp only [roundHalfEven]
  split
  · exact Nat.div_le_of_le_mul (by rwa [Nat.mul_comm])
  · rename_i up
    have rest : numerator % denominator ≠ 0 := by omega
    have floor : numerator / denominator < n :=
      (Nat.div_lt_iff_lt_mul (Nat.pos_of_ne_zero divides)).mpr (by
        refine Nat.lt_of_le_of_ne whole fun same => rest ?_
        rw [same, Nat.mul_mod_left])
    exact floor

-----------------------------------------------------------------------------------------
-- The exponent
-----------------------------------------------------------------------------------------

/-- A ratio measured in units of a power. -/
theorem ratio_inUnits (base numerator denominator : Nat) (exponent : Int)
    : ((numerator * Nat.pow base (-exponent).toNat : Nat) : ℚ)
        / (denominator * Nat.pow base exponent.toNat : Nat)
      = (numerator : ℚ) / denominator / (base : ℚ) ^ exponent := by
  rcases Int.le_total 0 exponent with above | below
  · obtain ⟨k, rfl⟩ := Int.eq_ofNat_of_zero_le above
    simp [div_div]
  · obtain ⟨k, rfl⟩ : ∃ k : Nat, exponent = -k := ⟨(-exponent).toNat, by omega⟩
    simp [mul_div_right_comm]

theorem inUnits_eq (numerator denominator : Nat) (exponent : Int)
    : ((numerator * Nat.pow 2 (-exponent).toNat : Nat) : ℚ)
        / (denominator * Nat.pow 2 exponent.toNat : Nat)
      = (numerator : ℚ) / denominator / 2 ^ exponent := by
  rw [ratio_inUnits, Nat.cast_ofNat]

/-- The ratio that a magnitude and its power are turned into. -/
theorem ratio_ofPower (base magnitude : Nat) (exponent : Int)
    : ((magnitude * Nat.pow base exponent.toNat : Nat) : ℚ) / (Nat.pow base (-exponent).toNat : Nat)
      = magnitude * (base : ℚ) ^ exponent := by
  have units := ratio_inUnits base magnitude 1 (-exponent)
  rwa [neg_neg, Nat.one_mul, Nat.cast_one, div_one, zpow_neg, div_inv_eq_mul] at units

/-- A magnitude measured in a lesser unit. -/
theorem mul_zpow_inUnits {base : Nat} (positive : base ≠ 0) (magnitude : Nat)
    {unit exponent : Int} (lesser : unit ≤ exponent)
    : ((magnitude * Nat.pow base (exponent - unit).toNat : Nat) : ℚ) * (base : ℚ) ^ unit
      = magnitude * (base : ℚ) ^ exponent := by
  obtain ⟨k, rfl⟩ := Int.le.dest lesser
  have steps : (unit + k - unit).toNat = k := by omega
  rw [steps, zpow_add₀ (by exact_mod_cast positive), zpow_natCast]
  simp only [Nat.pow_eq]
  push_cast
  ring

theorem rescaled_mul_zpow (magnitude : Nat) {unit exponent : Int} (lesser : unit ≤ exponent)
    : ((magnitude * Nat.pow 2 (exponent - unit).toNat : Nat) : ℚ) * 2 ^ unit
      = magnitude * 2 ^ exponent :=
  mod_cast mul_zpow_inUnits two_ne_zero magnitude lesser

theorem reachesPower_iff (divides : denominator ≠ 0) {exponent : Int}
    : reachesPower numerator denominator exponent = true
      ↔ (2 : ℚ) ^ exponent ≤ (numerator : ℚ) / denominator := by
  have power : (0 : ℚ) < 2 ^ exponent := by positivity
  have scaled : denominator * Nat.pow 2 exponent.toNat ≠ 0 :=
    Nat.mul_ne_zero divides (Nat.ne_of_gt (Nat.two_pow_pos _))
  have positive : (0 : ℚ) < (denominator * Nat.pow 2 exponent.toNat : Nat) := by
    exact_mod_cast Nat.pos_of_ne_zero scaled
  rw [reachesPower, decide_eq_true_iff, ← one_le_div power, ← inUnits_eq, one_le_div positive,
    Nat.cast_le]

/-- The power above a ratio is the least one that lies above it. -/
theorem powerAbove_spec (positive : numerator ≠ 0) (divides : denominator ≠ 0)
    : (2 : ℚ) ^ (powerAbove numerator denominator - 1) ≤ (numerator : ℚ) / denominator
      ∧ (numerator : ℚ) / denominator < 2 ^ powerAbove numerator denominator := by
  have divisor : (0 : ℚ) < denominator := by exact_mod_cast Nat.pos_of_ne_zero divides
  have least : (2 : ℚ) ^ (numerator.log2 : Int) ≤ numerator := by
    exact_mod_cast Nat.log2_self_le positive
  have most : (numerator : ℚ) < 2 ^ ((numerator.log2 : Int) + 1) := by
    exact_mod_cast Nat.lt_log2_self
  have leastUnder : (2 : ℚ) ^ (denominator.log2 : Int) ≤ denominator := by
    exact_mod_cast Nat.log2_self_le divides
  have mostUnder : (denominator : ℚ) < 2 ^ ((denominator.log2 : Int) + 1) := by
    exact_mod_cast Nat.lt_log2_self
  simp only [powerAbove]
  generalize candidateIs : (numerator.log2 : Int) - denominator.log2 = candidate
  have lower : (2 : ℚ) ^ (candidate - 1) ≤ numerator / denominator := by
    rw [le_div_iff₀ divisor]
    calc (2 : ℚ) ^ (candidate - 1) * denominator
        ≤ 2 ^ (candidate - 1) * 2 ^ ((denominator.log2 : Int) + 1) := by gcongr
      _ = 2 ^ (numerator.log2 : Int) := by
          rw [← zpow_add₀ two_ne_zero, ← candidateIs]
          congr 1
          omega
      _ ≤ numerator := least
  have upper : (numerator : ℚ) / denominator < 2 ^ (candidate + 1) := by
    rw [div_lt_iff₀ divisor]
    calc (numerator : ℚ) < 2 ^ ((numerator.log2 : Int) + 1) := most
      _ = 2 ^ (candidate + 1) * 2 ^ (denominator.log2 : Int) := by
          rw [← zpow_add₀ two_ne_zero, ← candidateIs]
          congr 1
          omega
      _ ≤ 2 ^ (candidate + 1) * denominator := by gcongr
  split
  · rename_i reached
    exact ⟨by simpa using (reachesPower_iff divides).mp reached, upper⟩
  · rename_i missed
    exact ⟨lower, not_le.mp fun reached => missed ((reachesPower_iff divides).mpr reached)⟩

/-- The unit of a ratio leaves it below the 53rd power, and below the 52nd only where the unit is
the least one.
-/
theorem unitExponent_spec (positive : numerator ≠ 0) (divides : denominator ≠ 0)
    : let unit := unitExponent numerator denominator
      let ratio := (numerator : ℚ) / denominator
      ratio < 2 ^ (53 : Int) * 2 ^ unit
      ∧ -1074 ≤ unit
      ∧ (2 ^ (52 : Int) * 2 ^ unit ≤ ratio ∨ unit = -1074) := by
  obtain ⟨lower, upper⟩ := powerAbove_spec positive divides
  intro unit ratio
  simp only [← zpow_add₀ (two_ne_zero (α := ℚ))]
  have unitIs : unit = max (powerAbove numerator denominator - 53) (-1074) := rfl
  refine ⟨upper.trans_le (zpow_le_zpow_right₀ one_le_two (by omega)), by omega, ?_⟩
  rcases Int.le_total (powerAbove numerator denominator - 53) (-1074) with least | most
  · exact Or.inr (by omega)
  · have same : 52 + unit = powerAbove numerator denominator - 1 := by omega
    exact Or.inl (same ▸ lower)

-----------------------------------------------------------------------------------------
-- The rounded number
-----------------------------------------------------------------------------------------

/-- A value lies on the same side of each number of the format as a ratio does, the numbers that
the format would hold without its upper end included.
-/
structure SameSide (ratio value : ℚ) : Prop where
  above
    : ∀ (significand : Nat) (exponent : Int),
        significand < 2 ^ 53
        → -1074 ≤ exponent
        → (significand : ℚ) * 2 ^ exponent ≤ ratio
        → (significand : ℚ) * 2 ^ exponent ≤ value
  below
    : ∀ (significand : Nat) (exponent : Int),
        significand < 2 ^ 53
        → -1074 ≤ exponent
        → ratio ≤ significand * 2 ^ exponent
        → value ≤ significand * 2 ^ exponent

/-- A number of the format lies below every filled one of a greater unit. -/
theorem lt_filled {significand : Nat} {exponent unit : Int} (fits : significand < 2 ^ 53)
    (less : exponent < unit)
    : (significand : ℚ) * 2 ^ exponent < 2 ^ (52 : Int) * 2 ^ unit := by
  have order : exponent ≤ unit - 1 := by omega
  calc (significand : ℚ) * 2 ^ exponent
      < 2 ^ (53 : Int) * 2 ^ exponent := by gcongr; exact_mod_cast fits
    _ ≤ 2 ^ (53 : Int) * 2 ^ (unit - 1) := by gcongr; exact one_le_two
    _ = 2 ^ (52 : Int) * 2 ^ unit := by
        rw [← zpow_add₀ two_ne_zero, ← zpow_add₀ two_ne_zero]
        congr 1
        omega

/-- The significand of a ratio in its own unit. Numbers of the format with that unit or a greater
one are whole in it. Those with a less one lie below every ratio whose unit is not the least.
-/
theorem significand_spec (positive : numerator ≠ 0) (divides : denominator ≠ 0)
    : let unit := unitExponent numerator denominator
      let significand := roundHalfEven (numerator * Nat.pow 2 (-unit).toNat)
        (denominator * Nat.pow 2 unit.toNat)
      significand ≤ 2 ^ 53
      ∧ (2 ^ 52 ≤ significand ∨ unit = -1074)
      ∧ SameSide ((numerator : ℚ) / denominator) (significand * 2 ^ unit) := by
  obtain ⟨upper, -, lower⟩ := unitExponent_spec positive divides
  intro unit significand
  have power : (0 : ℚ) < 2 ^ unit := by positivity
  have scaled : denominator * Nat.pow 2 unit.toNat ≠ 0 :=
    Nat.mul_ne_zero divides (Nat.ne_of_gt (Nat.two_pow_pos _))
  have up : ∀ n : Nat, (n : ℚ) * 2 ^ unit ≤ numerator / denominator → n ≤ significand :=
    fun n under => le_roundHalfEven scaled (by rwa [inUnits_eq, le_div_iff₀ power])
  have down : ∀ n : Nat, (numerator : ℚ) / denominator ≤ n * 2 ^ unit → significand ≤ n :=
    fun n above => roundHalfEven_le scaled (by rwa [inUnits_eq, div_le_iff₀ power])
  have filled : 2 ^ 52 ≤ significand ∨ unit = -1074 :=
    lower.imp_left fun reached => up (2 ^ 52) (by exact_mod_cast reached)
  refine ⟨down (2 ^ 53) (by exact_mod_cast upper.le), filled, ?_, ?_⟩
  · intro bound exponent fits least under
    rcases le_or_gt unit exponent with greater | less
    · rw [← rescaled_mul_zpow bound greater] at under ⊢
      gcongr
      exact up _ under
    · have high : 2 ^ 52 ≤ significand := filled.resolve_right (by omega)
      refine (lt_filled fits less).le.trans ?_
      gcongr
      exact_mod_cast high
  · intro bound exponent fits least above
    rcases le_or_gt unit exponent with greater | less
    · rw [← rescaled_mul_zpow bound greater] at above ⊢
      gcongr
      exact down _ above
    · have high := lower.resolve_right (by omega)
      exact absurd (high.trans above) (lt_filled fits less).not_ge

/-- A positive ratio is rounded to parts of the format, its upper end apart. A significand that is
rounded up to the 53rd power stands for the same number in the next unit.
-/
theorem ofRatio_spec (negative : Bool) (positive : numerator ≠ 0) (divides : denominator ≠ 0)
    : ∃ (significand : Nat) (exponent : Int),
        ofRatio negative numerator denominator = ofParts negative significand exponent
        ∧ significand < 2 ^ 53
        ∧ -1074 ≤ exponent
        ∧ (2 ^ 52 ≤ significand ∨ exponent = -1074)
        ∧ SameSide ((numerator : ℚ) / denominator) (significand * 2 ^ exponent) := by
  obtain ⟨-, least, -⟩ := unitExponent_spec positive divides
  obtain ⟨fits, filled, sides⟩ := significand_spec positive divides
  simp only [ofRatio, positive, ↓reduceIte]
  split
  · rename_i full
    rw [full] at sides
    refine ⟨_, _, rfl, by decide, by omega, Or.inl (le_refl _), ?_⟩
    have same : ((Nat.pow 2 52 : Nat) : ℚ) * 2 ^ (unitExponent numerator denominator + 1)
        = (Nat.pow 2 53 : Nat) * 2 ^ unitExponent numerator denominator := by
      rw [zpow_add_one₀ two_ne_zero]
      simp only [Nat.pow_eq]
      push_cast
      ring
    rwa [same]
  · rename_i short
    exact ⟨_, _, rfl, Nat.lt_of_le_of_ne fits short, least, filled, sides⟩

/-- The value of a rounded ratio, where it has one, lies on the side that the ratio lies on. -/
theorem sameSide_of_value? {negative : Bool} (positive : numerator ≠ 0)
    (divides : denominator ≠ 0) {x : ℚ}
    (valued : (ofRatio negative numerator denominator).value? = some x)
    : ∃ value,
        x = (if negative then -1 else 1) * value
        ∧ SameSide ((numerator : ℚ) / denominator) value := by
  obtain ⟨significand, exponent, parts, -, -, -, sides⟩ := ofRatio_spec negative positive divides
  rw [parts, ofParts] at valued
  split at valued
  · exact ⟨_, (Option.some.inj valued).symm, sides⟩
  · cases valued

/-- A positive ratio with a number of the format above it is rounded to a finite number. -/
theorem value?_ofRatio (negative : Bool) (positive : numerator ≠ 0) (divides : denominator ≠ 0)
    {bound : Nat} {exponent : Int} (fits : bound < 2 ^ 53) (least : -1074 ≤ exponent)
    (most : exponent ≤ 971) (below : (numerator : ℚ) / denominator ≤ bound * 2 ^ exponent)
    : ∃ value,
        (ofRatio negative numerator denominator).value?
          = some ((if negative then -1 else 1) * value)
        ∧ SameSide ((numerator : ℚ) / denominator) value := by
  obtain ⟨significand, unit, parts, small, low, filled, sides⟩ :=
    ofRatio_spec negative positive divides
  have high : unit ≤ 971 := by
    by_contra beyond
    have reached : 2 ^ 52 ≤ significand := filled.resolve_right (by omega)
    have above : (bound : ℚ) * 2 ^ exponent < significand * 2 ^ unit := by
      refine (lt_filled fits (show exponent < unit by omega)).trans_le ?_
      gcongr
      exact_mod_cast reached
    exact (sides.below bound exponent fits least below).not_gt above
  refine ⟨_, ?_, sides⟩
  rw [parts, ofParts, dif_pos ⟨small, low, high, filled⟩]
  rfl

/-- A ratio that the format holds is its own rounding. -/
theorem value?_ofRatio_of_eq (negative : Bool) (positive : numerator ≠ 0)
    (divides : denominator ≠ 0) {significand : Nat} {exponent : Int} (fits : significand < 2 ^ 53)
    (least : -1074 ≤ exponent) (most : exponent ≤ 971)
    (held : (numerator : ℚ) / denominator = significand * 2 ^ exponent)
    : (ofRatio negative numerator denominator).value?
      = some ((if negative then -1 else 1) * ((numerator : ℚ) / denominator)) := by
  obtain ⟨value, rounded, sides⟩ :=
    value?_ofRatio negative positive divides fits least most held.le
  have under := sides.below significand exponent fits least held.le
  have above := sides.above significand exponent fits least held.ge
  rw [rounded, le_antisymm (under.trans held.ge) (held.le.trans above)]

end CompilerReports.Binary64
