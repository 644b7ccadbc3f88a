import CompilerReports.Proofs.Binary64.Shortest
import CompilerReports.Proofs.Binary64.Whole

/-! The number nearest to a ratio. No number of the format lies nearer to a ratio than the one
that it is rounded to, and of two that are equally near it is the one with the even significand.
Half a unit above the greatest number the ratios become infinite. These rules leave one number for
each ratio, so that everything else about the rounded number follows from them: its order, exact
values and the bound of the infinite ones.
-/

namespace CompilerReports.Binary64

variable {numerator denominator : Nat}

-----------------------------------------------------------------------------------------
-- The nearest whole number
-----------------------------------------------------------------------------------------

/-- A ratio is a whole number and a part less than one, which is compared with a half as the rest of
the division is.
-/
theorem exists_part (numerator : Nat) (divides : denominator ≠ 0)
    : ∃ part : ℚ,
        (numerator : ℚ) / denominator = (numerator / denominator : Nat) + part
        ∧ 0 ≤ part
        ∧ part < 1
        ∧ (part < 1 / 2 ↔ 2 * (numerator % denominator) < denominator)
        ∧ (part = 1 / 2 ↔ 2 * (numerator % denominator) = denominator) := by
  have positive : (0 : ℚ) < denominator := by exact_mod_cast Nat.pos_of_ne_zero divides
  have parts : (numerator : ℚ) = denominator * (numerator / denominator : Nat)
      + (numerator % denominator : Nat) := by
    exact_mod_cast (Nat.div_add_mod numerator denominator).symm
  refine ⟨(numerator % denominator : Nat) / denominator, ?_, by positivity, ?_, ?_, ?_⟩
  · rw [parts, add_div, mul_div_cancel_left₀ _ positive.ne']
  · rw [div_lt_one positive]
    exact_mod_cast Nat.mod_lt _ (Nat.pos_of_ne_zero divides)
  · rw [div_lt_div_iff₀ positive two_pos, one_mul, mul_comm]
    exact_mod_cast Iff.rfl
  · rw [div_eq_div_iff positive.ne' two_ne_zero, one_mul, mul_comm]
    exact_mod_cast Iff.rfl

/-- Rounding to a whole number errs by a half at most, and by a half only towards an even number. -/
theorem roundHalfEven_error (numerator : Nat) (divides : denominator ≠ 0)
    : |(numerator : ℚ) / denominator - roundHalfEven numerator denominator| ≤ 1 / 2
      ∧ (|(numerator : ℚ) / denominator - roundHalfEven numerator denominator| = 1 / 2
        → roundHalfEven numerator denominator % 2 = 0) := by
  obtain ⟨part, ratio, least, small, below, half⟩ := exists_part numerator divides
  simp only [ratio, roundHalfEven]
  split
  case isTrue down =>
    rw [add_sub_cancel_left, abs_of_nonneg least]
    rcases down with under | ⟨tie, even⟩
    · have less := below.mpr under
      exact ⟨less.le, fun same => absurd same less.ne⟩
    · exact ⟨(half.mpr tie).le, fun _ => even⟩
  case isFalse up =>
    obtain ⟨reached, odd⟩ := not_or.mp up
    have most := le_of_not_gt (below.not.mpr reached)
    have distance : |(numerator / denominator : Nat) + part - (numerator / denominator + 1 : Nat)|
        = 1 - part := by
      push_cast
      rw [add_sub_add_left_eq_sub, abs_of_nonpos (by linarith), neg_sub]
    rw [distance]
    refine ⟨by linarith, fun same => ?_⟩
    have tie : part = 1 / 2 := by linarith
    have notEven := not_and.mp odd (half.mp tie)
    omega

/-- So no whole number is nearer to the ratio, and none is as near unless the rounded one is even.
-/
theorem roundHalfEven_nearest (numerator : Nat) (divides : denominator ≠ 0) (k : ℤ)
    : |(numerator : ℚ) / denominator - roundHalfEven numerator denominator|
        ≤ |(numerator : ℚ) / denominator - k|
      ∧ (|(numerator : ℚ) / denominator - k|
          = |(numerator : ℚ) / denominator - roundHalfEven numerator denominator|
        → k = roundHalfEven numerator denominator
          ∨ roundHalfEven numerator denominator % 2 = 0) := by
  obtain ⟨half, even⟩ := roundHalfEven_error numerator divides
  by_cases same : k = roundHalfEven numerator denominator
  · have exact : (k : ℚ) = roundHalfEven numerator denominator := by exact_mod_cast same
    exact ⟨by rw [exact], fun _ => Or.inl same⟩
  · have apart : (1 : ℚ) ≤ |(k : ℚ) - roundHalfEven numerator denominator| := by
      exact_mod_cast Int.one_le_abs (sub_ne_zero.mpr same)
    have triangle := abs_sub_le (k : ℚ) (numerator / denominator)
      (roundHalfEven numerator denominator)
    rw [abs_sub_comm (k : ℚ) (numerator / denominator)] at triangle
    exact ⟨by linarith, fun tie => Or.inr (even (by linarith))⟩

-----------------------------------------------------------------------------------------
-- The nearest number of the format
-----------------------------------------------------------------------------------------

/-- The parts are nearest to the ratio among all parts of the format, as it would be without an
upper end. Parts that are as near have the same value, unless the significand is even.
-/
structure RoundsTo (ratio : ℚ) (significand : Nat) (exponent : Int) : Prop where
  nearest
    : ∀ (other : Nat) (unit : Int),
        other < 2 ^ 53
        → -1074 ≤ unit
        → |ratio - significand * 2 ^ exponent| ≤ |ratio - other * 2 ^ unit|
  even
    : ∀ (other : Nat) (unit : Int),
        other < 2 ^ 53
        → -1074 ≤ unit
        → |ratio - other * 2 ^ unit| = |ratio - significand * 2 ^ exponent|
        → (other : ℚ) * 2 ^ unit = significand * 2 ^ exponent ∨ significand % 2 = 0

/-- For each number of the format there is a multiple of a ratio's unit that is no farther from the
ratio. The number itself is one, if its unit is no less; else the least filled multiple is, for it
lies between the number and the ratio.
-/
theorem exists_multiple (positive : numerator ≠ 0) (divides : denominator ≠ 0) {other : Nat}
    {exponent : Int} (fits : other < 2 ^ 53) (least : -1074 ≤ exponent)
    : let ratio := (numerator : ℚ) / denominator
      let unit := unitExponent numerator denominator
      ∃ k : ℤ,
        |ratio - k * 2 ^ unit| ≤ |ratio - other * 2 ^ exponent|
        ∧ (|ratio - other * 2 ^ exponent| ≤ |ratio - k * 2 ^ unit|
          → (other : ℚ) * 2 ^ exponent = k * 2 ^ unit) := by
  obtain ⟨-, -, lower⟩ := unitExponent_spec positive divides
  intro ratio unit
  rcases le_or_gt unit exponent with greater | less
  · refine ⟨(other * Nat.pow 2 (exponent - unit).toNat : Nat), ?_⟩
    rw [Int.cast_natCast, rescaled_mul_zpow other greater]
    exact ⟨le_rfl, fun _ => rfl⟩
  · have reached : (2 : ℚ) ^ (52 : Int) * 2 ^ unit ≤ ratio := lower.resolve_right (by omega)
    have under := lt_filled fits less
    refine ⟨(2 ^ 52 : Nat), ?_⟩
    have filled : (((2 ^ 52 : Nat) : ℤ) : ℚ) = 2 ^ (52 : Int) := by norm_num
    rw [filled, abs_of_nonneg (by linarith), abs_of_nonneg (by linarith)]
    exact ⟨by linarith, fun farther => by linarith⟩

/-- The significand of a ratio in its own unit is nearest to the ratio: what is nearest among the
multiples of the unit is nearest in the format.
-/
theorem roundsTo_significand (positive : numerator ≠ 0) (divides : denominator ≠ 0)
    : let unit := unitExponent numerator denominator
      RoundsTo ((numerator : ℚ) / denominator)
        (roundHalfEven (numerator * Nat.pow 2 (-unit).toNat) (denominator * Nat.pow 2 unit.toNat))
        unit := by
  intro unit
  have power : (0 : ℚ) < 2 ^ unit := by positivity
  have scaled : denominator * Nat.pow 2 unit.toNat ≠ 0 :=
    Nat.mul_ne_zero divides (Nat.ne_of_gt (Nat.two_pow_pos _))
  have wholes := fun k : ℤ =>
    roundHalfEven_nearest (numerator * Nat.pow 2 (-unit).toNat) scaled k
  rw [inUnits_eq] at wholes
  generalize roundHalfEven _ _ = significand at wholes ⊢
  have distance : ∀ x : ℚ, |(numerator : ℚ) / denominator - x * 2 ^ unit|
      = |(numerator : ℚ) / denominator / 2 ^ unit - x| * 2 ^ unit := by
    intro x
    rw [← abs_of_pos power, ← abs_mul, abs_of_pos power, sub_mul, div_mul_cancel₀ _ power.ne']
  constructor
  · intro other exponent fits least
    obtain ⟨k, nearer, -⟩ := exists_multiple positive divides fits least
    refine le_trans ?_ nearer
    rw [distance, distance]
    exact mul_le_mul_of_nonneg_right (wholes k).1 power.le
  · intro other exponent fits least tie
    obtain ⟨k, nearer, same⟩ := exists_multiple positive divides fits least
    have bound : |(numerator : ℚ) / denominator - significand * 2 ^ unit|
        ≤ |(numerator : ℚ) / denominator - k * 2 ^ unit| := by
      rw [distance, distance]
      exact mul_le_mul_of_nonneg_right (wholes k).1 power.le
    rw [same (tie.le.trans bound)]
    have equal := le_antisymm (nearer.trans tie.le) bound
    rw [distance, distance, mul_left_inj' power.ne'] at equal
    refine ((wholes k).2 equal).imp_left fun exact => ?_
    rw [exact, Int.cast_natCast]

/-- A significand that is rounded up to the 53rd power stands for an even one in the next unit. -/
theorem RoundsTo.carry {ratio : ℚ} {exponent : Int} (rounds : RoundsTo ratio (2 ^ 53) exponent)
    : RoundsTo ratio (2 ^ 52) (exponent + 1) := by
  have same : ((2 ^ 52 : Nat) : ℚ) * 2 ^ (exponent + 1) = (2 ^ 53 : Nat) * 2 ^ exponent := by
    rw [zpow_add_one₀ two_ne_zero]
    push_cast
    ring
  constructor
  · rw [same]
    exact rounds.nearest
  · exact fun _ _ _ _ _ => Or.inr rfl

/-- A positive ratio is rounded to parts of the format, its upper end apart, that are nearest to
it.
-/
theorem exists_roundsTo (negative : Bool) (positive : numerator ≠ 0) (divides : denominator ≠ 0)
    : ∃ (significand : Nat) (exponent : Int),
        ofRatio negative numerator denominator = ofParts negative significand exponent
        ∧ significand < 2 ^ 53
        ∧ -1074 ≤ exponent
        ∧ (2 ^ 52 ≤ significand ∨ exponent = -1074)
        ∧ RoundsTo ((numerator : ℚ) / denominator) significand exponent := by
  obtain ⟨-, least, -⟩ := unitExponent_spec positive divides
  obtain ⟨fits, filled, -⟩ := significand_spec positive divides
  have rounds := roundsTo_significand positive divides
  simp only at rounds
  simp only [ofRatio, positive, ↓reduceIte]
  split
  · rename_i full
    rw [full] at rounds
    exact ⟨_, _, rfl, by decide, by omega, Or.inl (le_refl _), rounds.carry⟩
  · rename_i short
    exact ⟨_, _, rfl, Nat.lt_of_le_of_ne fits short, least, filled, rounds⟩

-----------------------------------------------------------------------------------------
-- The upper end of the format
-----------------------------------------------------------------------------------------

/-- Of two numbers the less one is no farther from a ratio where the ratio is not beyond their
middle.
-/
theorem nearer_less_iff {ratio less greater : ℚ} (order : less < greater)
    : |ratio - less| ≤ |ratio - greater| ↔ 2 * ratio ≤ less + greater := by
  rcases abs_cases (ratio - less) with ⟨left, _⟩ | ⟨left, _⟩ <;>
    rcases abs_cases (ratio - greater) with ⟨right, _⟩ | ⟨right, _⟩ <;>
    rw [left, right] <;> constructor <;> intro <;> linarith

theorem nearer_greater_iff {ratio less greater : ℚ} (order : less < greater)
    : |ratio - greater| ≤ |ratio - less| ↔ less + greater ≤ 2 * ratio := by
  rcases abs_cases (ratio - less) with ⟨left, _⟩ | ⟨left, _⟩ <;>
    rcases abs_cases (ratio - greater) with ⟨right, _⟩ | ⟨right, _⟩ <;>
    rw [left, right] <;> constructor <;> intro <;> linarith

/-- The least value that is infinite when it is rounded. -/
def infiniteFrom : ℚ := 2 ^ (1024 : Int) - 2 ^ (970 : Int)

/-- The bound lies in the middle between the greatest number and the next one beyond the format. -/
theorem two_mul_infiniteFrom
    : 2 * infiniteFrom
      = (2 ^ 53 - 1 : Nat) * 2 ^ (971 : Int) + (2 ^ 52 : Nat) * 2 ^ (972 : Int) := by
  have next : (971 : Int) = 970 + 1 := rfl
  have afterNext : (972 : Int) = 970 + 2 := rfl
  have power : (1024 : Int) = 970 + 54 := rfl
  rw [infiniteFrom, next, afterNext, power, zpow_add₀ two_ne_zero, zpow_add₀ two_ne_zero,
    zpow_add₀ two_ne_zero]
  generalize (2 : ℚ) ^ (970 : Int) = half
  norm_num
  ring

section

variable {ratio : ℚ} {significand : Nat} {exponent unit : Int}

theorem le_longest (fits : significand < 2 ^ 53) (order : exponent ≤ unit)
    : (significand : ℚ) * 2 ^ exponent ≤ (2 ^ 53 - 1 : Nat) * 2 ^ unit := by
  gcongr
  · omega
  · exact one_le_two

theorem filled_le (filled : 2 ^ 52 ≤ significand) (order : unit ≤ exponent)
    : ((2 ^ 52 : Nat) : ℚ) * 2 ^ unit ≤ significand * 2 ^ exponent := by
  gcongr
  exact one_le_two

/-- The parts of the ratios that are infinite lie beyond the upper end of the format. The greatest
number is odd, so the bound in the middle between it and the next one is not rounded to it.
-/
theorem RoundsTo.infiniteFrom_le_iff (rounds : RoundsTo ratio significand exponent)
    (fits : significand < 2 ^ 53) (least : -1074 ≤ exponent)
    (filled : 2 ^ 52 ≤ significand ∨ exponent = -1074)
    : infiniteFrom ≤ ratio ↔ 972 ≤ exponent := by
  have middle := two_mul_infiniteFrom
  have toGreatest := rounds.nearest (2 ^ 53 - 1) 971 (by decide) (by decide)
  have toNext := rounds.nearest (2 ^ 52) 972 (by decide) (by decide)
  have evenAtNext := rounds.even (2 ^ 52) 972 (by decide) (by decide)
  have canonical : Canonical (2 ^ 53 - 1) 971 := by decide
  have inOrder : ((2 ^ 53 - 1 : Nat) : ℚ) * 2 ^ (971 : Int) < (2 ^ 52 : Nat) * 2 ^ (972 : Int) := by
    have less := lt_filled (show 2 ^ 53 - 1 < 2 ^ 53 by decide) (show (971 : Int) < 972 by decide)
    exact_mod_cast less
  have below : exponent ≤ 971
      → (significand : ℚ) * 2 ^ exponent ≤ (2 ^ 53 - 1 : Nat) * 2 ^ (971 : Int) := le_longest fits
  have above : 2 ^ 52 ≤ significand → 972 ≤ exponent
      → ((2 ^ 52 : Nat) : ℚ) * 2 ^ (972 : Int) ≤ significand * 2 ^ exponent := filled_le
  have exact := parts_unique canonical fits least filled
  generalize ((2 ^ 53 - 1 : Nat) : ℚ) * 2 ^ (971 : Int) = greatest at *
  generalize ((2 ^ 52 : Nat) : ℚ) * 2 ^ (972 : Int) = next at *
  constructor
  · intro large
    by_contra low
    have most := below (by omega)
    have order : (significand : ℚ) * 2 ^ exponent < next := most.trans_lt inOrder
    have under := (nearer_less_iff order).mp toNext
    have tie : (significand : ℚ) * 2 ^ exponent = greatest := by linarith
    have asNear : |ratio - next| ≤ |ratio - significand * 2 ^ exponent| :=
      (nearer_greater_iff order).mpr (by linarith)
    rcases evenAtNext (le_antisymm asNear toNext) with same | even
    · exact order.ne' same
    · obtain ⟨odd, -⟩ := exact tie
      omega
  · intro high
    have least := above (filled.resolve_right (by omega)) high
    have past := (nearer_greater_iff (inOrder.trans_le least)).mp toGreatest
    linarith

end

-----------------------------------------------------------------------------------------
-- The nearest number
-----------------------------------------------------------------------------------------

/-- (IsNearest ratio x) holds of the number that a ratio, which is not negative, is to be rounded
to. From the bound on that is the infinite one. Below it a finite number must be as near to the
ratio as every other one, and have an even significand if a number of another value is as near.
-/
inductive IsNearest (ratio : ℚ) : Binary64 → Prop where
  | infinite (large : infiniteFrom ≤ ratio) : IsNearest ratio (.infinite false)
  | finite {significand : Nat} {exponent : Int} (canonical : Canonical significand exponent)
    (small : ratio < infiniteFrom)
    (nearest : ∀ (y : Binary64) value,
      y.value? = some value → |ratio - significand * 2 ^ exponent| ≤ |ratio - value|)
    (even : ∀ (y : Binary64) value,
      y.value? = some value
      → |ratio - value| = |ratio - significand * 2 ^ exponent|
      → value = significand * 2 ^ exponent ∨ significand % 2 = 0)
    : IsNearest ratio (.finite false significand exponent canonical)

/-- The value of a number is that of its parts under its sign. -/
theorem exists_parts_of_value? {x : Binary64} {value : ℚ} (valued : x.value? = some value)
    : ∃ (negative : Bool) (significand : Nat) (exponent : Int),
        Canonical significand exponent
        ∧ value = (if negative then -1 else 1) * (significand * 2 ^ exponent) := by
  cases x with
  | nan | infinite => cases valued
  | finite negative significand exponent canonical =>
      exact ⟨negative, significand, exponent, canonical, (Option.some.inj valued).symm⟩

section

variable {ratio : ℚ} {significand : Nat} {exponent : Int}

/-- Parts that are nearest among all parts are nearest among all numbers: below zero no number is as
near as zero is.
-/
theorem RoundsTo.isNearest (rounds : RoundsTo ratio significand exponent)
    (canonical : Canonical significand exponent) (small : ratio < infiniteFrom)
    (notNegative : 0 ≤ ratio)
    : IsNearest ratio (.finite false significand exponent canonical) := by
  have toZero : |ratio - significand * 2 ^ exponent| ≤ ratio := by
    have nearer := rounds.nearest 0 (-1074) (by decide) le_rfl
    rwa [Nat.cast_zero, zero_mul, sub_zero, abs_of_nonneg notNegative] at nearer
  refine .finite canonical small ?_ ?_
  · intro y value valued
    obtain ⟨negative, other, unit, parts, rfl⟩ := exists_parts_of_value? valued
    cases negative with
    | false => simpa using rounds.nearest other unit parts.1 parts.2.1
    | true =>
        have below : (0 : ℚ) ≤ other * 2 ^ unit := by positivity
        simp only [↓reduceIte, neg_one_mul, sub_neg_eq_add]
        rw [abs_of_nonneg (add_nonneg notNegative below)]
        linarith
  · intro y value valued tie
    obtain ⟨negative, other, unit, parts, rfl⟩ := exists_parts_of_value? valued
    cases negative with
    | false =>
        simp only [Bool.false_eq_true, ↓reduceIte, one_mul] at tie ⊢
        exact rounds.even other unit parts.1 parts.2.1 tie
    | true =>
        have below : (0 : ℚ) ≤ other * 2 ^ unit := by positivity
        simp only [↓reduceIte, neg_one_mul, sub_neg_eq_add] at tie ⊢
        rw [abs_of_nonneg (add_nonneg notNegative below)] at tie
        have zero : (other : ℚ) * 2 ^ unit = 0 := by linarith
        rw [zero, add_zero] at tie
        rw [zero, neg_zero]
        have evenAtZero := rounds.even 0 (-1074) (by decide) le_rfl
        rw [Nat.cast_zero, zero_mul, sub_zero, abs_of_nonneg notNegative] at evenAtZero
        exact evenAtZero tie

end

/-- A ratio is rounded to the number nearest to it. -/
theorem isNearest_ofRatio (numerator : Nat) (divides : denominator ≠ 0)
    : IsNearest ((numerator : ℚ) / denominator) (ofRatio false numerator denominator) := by
  by_cases positive : numerator = 0
  · have bound : (0 : ℚ) < infiniteFrom :=
      sub_pos.mpr (zpow_lt_zpow_right₀ one_lt_two (by decide))
    have rounds : RoundsTo 0 0 (-1074) := by
      constructor
      · intro other unit _ _
        rw [Nat.cast_zero, zero_mul, sub_zero, abs_zero]
        exact abs_nonneg _
      · exact fun _ _ _ _ _ => Or.inr rfl
    simp only [ofRatio, positive, ↓reduceIte, Nat.cast_zero, zero_div]
    exact rounds.isNearest _ bound le_rfl
  · obtain ⟨significand, exponent, parts, fits, least, filled, rounds⟩ :=
      exists_roundsTo false positive divides
    have bound := rounds.infiniteFrom_le_iff fits least filled
    rw [parts, ofParts]
    split
    case isTrue canonical =>
      have small : (numerator : ℚ) / denominator < infiniteFrom :=
        not_le.mp fun large => by
          have := bound.mp large
          have := canonical.2.2.1
          omega
      exact rounds.isNearest canonical small (by positivity)
    case isFalse beyond =>
      refine .infinite (bound.mpr ?_)
      by_contra low
      exact beyond ⟨fits, least, by omega, filled⟩

theorem value?_positive {significand : Nat} {exponent : Int}
    (canonical : Canonical significand exponent)
    : value? (.finite false significand exponent canonical)
      = some ((significand : ℚ) * 2 ^ exponent) := by
  simp [value?]

/-- The number next above a number of the format is no greater than any greater number. -/
theorem succ_mul_le {significand other : Nat} {exponent unit : Int}
    (canonical : Canonical significand exponent) (otherCanonical : Canonical other unit)
    (less : (significand : ℚ) * 2 ^ exponent < other * 2 ^ unit)
    : ((significand + 1 : Nat) : ℚ) * 2 ^ exponent ≤ other * 2 ^ unit := by
  have power : (0 : ℚ) < 2 ^ exponent := by positivity
  rcases le_or_gt exponent unit with order | order
  · rw [← rescaled_mul_zpow other order] at less ⊢
    have whole := lt_of_mul_lt_mul_right less power.le
    gcongr
    exact_mod_cast whole
  · have otherLeast := otherCanonical.2.1
    have filled : 2 ^ 52 ≤ significand := canonical.2.2.2.resolve_right (by omega)
    have above : ((2 ^ 52 : Nat) : ℚ) * 2 ^ exponent ≤ significand * 2 ^ exponent :=
      filled_le filled le_rfl
    have under : (other : ℚ) * 2 ^ unit < (2 ^ 52 : Nat) * 2 ^ exponent := by
      exact_mod_cast lt_filled otherCanonical.1 order
    exact absurd less (under.trans_le above).not_gt

/-- The number next above an even one is a number of the format. -/
theorem Canonical.succ {significand : Nat} {exponent : Int}
    (canonical : Canonical significand exponent) (even : significand % 2 = 0)
    : Canonical (significand + 1) exponent := by
  obtain ⟨fits, least, most, filled⟩ := canonical
  simp only [Nat.pow_eq] at fits filled
  refine ⟨?_, least, most, ?_⟩
  · simp only [Nat.pow_eq]
    omega
  · simp only [Nat.pow_eq]
    omega

/-- Two numbers cannot both be nearest to a ratio: in the middle between even ones lies a number
that is nearer.
-/
theorem IsNearest.not_less {ratio : ℚ} {significand other : Nat} {exponent unit : Int}
    {canonical : Canonical significand exponent} {otherCanonical : Canonical other unit}
    (first : IsNearest ratio (.finite false significand exponent canonical))
    (second : IsNearest ratio (.finite false other unit otherCanonical))
    : ¬ (significand : ℚ) * 2 ^ exponent < other * 2 ^ unit := by
  intro less
  cases first with
  | finite _ small nearest even =>
  cases second with
  | finite _ otherSmall otherNearest otherEven =>
  have toSecond := nearest _ _ (value?_positive otherCanonical)
  have toFirst := otherNearest _ _ (value?_positive canonical)
  have firstEven := (even _ _ (value?_positive otherCanonical)
    (le_antisymm toFirst toSecond)).resolve_left less.ne'
  have secondEven := (otherEven _ _ (value?_positive canonical)
    (le_antisymm toSecond toFirst)).resolve_left less.ne
  have next := canonical.succ firstEven
  have toNext := nearest _ _ (value?_positive next)
  have power : (0 : ℚ) < 2 ^ exponent := by positivity
  have above : (significand : ℚ) * 2 ^ exponent < (significand + 1 : Nat) * 2 ^ exponent := by
    gcongr
    exact Nat.lt_succ_self _
  rcases (succ_mul_le canonical otherCanonical less).lt_or_eq with apart | same
  · have under := (nearer_less_iff above).mp toNext
    have past := (nearer_greater_iff less).mp toFirst
    linarith
  · obtain ⟨odd, -⟩ := parts_unique otherCanonical next.1 next.2.1 next.2.2.2 same
    omega

theorem IsNearest.unique {ratio : ℚ} {x y : Binary64} (first : IsNearest ratio x)
    (second : IsNearest ratio y)
    : x = y := by
  cases x with
  | nan => cases first
  | infinite negative =>
      cases first with
      | infinite large =>
      cases second with
      | infinite => rfl
      | finite _ small => exact absurd large small.not_ge
  | finite negative significand exponent canonical =>
      cases y with
      | nan => cases second
      | infinite minus =>
          cases second with
          | infinite large =>
          cases first with
          | finite _ small => exact absurd large small.not_ge
      | finite minus other unit otherCanonical =>
          obtain rfl : negative = false := by cases first; rfl
          obtain rfl : minus = false := by cases second; rfl
          have same := le_antisymm (not_lt.mp (second.not_less first))
            (not_lt.mp (first.not_less second))
          obtain ⟨rfl, rfl⟩ := parts_unique otherCanonical canonical.1 canonical.2.1
            canonical.2.2.2 same
          rfl

-----------------------------------------------------------------------------------------
-- Order
-----------------------------------------------------------------------------------------

/-- (AtMost x y) orders the numbers by their values, between the two infinities. -/
inductive AtMost : Binary64 → Binary64 → Prop where
  | values {x y : Binary64} {a b : ℚ} (left : x.value? = some a) (right : y.value? = some b)
    (order : a ≤ b)
    : AtMost x y
  | infinite {x : Binary64} (number : x ≠ .nan) : AtMost x (.infinite false)
  | negative {y : Binary64} (number : y ≠ .nan) : AtMost (.infinite true) y

theorem AtMost.refl {x : Binary64} (number : x ≠ .nan)
    : AtMost x x := by
  cases x with
  | nan => exact absurd rfl number
  | infinite negative =>
      cases negative with
      | false => exact .infinite number
      | true => exact .negative number
  | finite negative significand exponent canonical => exact .values rfl rfl le_rfl

theorem IsNearest.ne_nan {ratio : ℚ} {x : Binary64} (nearest : IsNearest ratio x)
    : x ≠ .nan := by
  rintro rfl
  cases nearest

/-- A ratio from the bound on is rounded to the infinite number, and no other one is. -/
theorem IsNearest.eq_infinite_iff {ratio : ℚ} {x : Binary64} (nearest : IsNearest ratio x)
    : x = .infinite false ↔ infiniteFrom ≤ ratio := by
  cases nearest with
  | infinite large => exact iff_of_true rfl large
  | finite canonical small => exact iff_of_false (by simp) small.not_ge

/-- Rounding keeps the order of ratios: if the number nearest to the greater one were less, each
ratio would be on the other's side of the middle between the two numbers.
-/
theorem IsNearest.atMost {ratio other : ℚ} {x y : Binary64} (first : IsNearest ratio x)
    (second : IsNearest other y) (order : ratio ≤ other)
    : AtMost x y := by
  rcases order.eq_or_lt with rfl | less
  · obtain rfl := first.unique second
    exact .refl first.ne_nan
  cases second with
  | infinite => exact .infinite first.ne_nan
  | finite otherCanonical otherSmall otherNearest =>
      cases first with
      | infinite large => exact absurd (large.trans order) otherSmall.not_ge
      | finite canonical small nearest =>
          refine .values (value?_positive canonical) (value?_positive otherCanonical) ?_
          by_contra greater
          have past := (nearer_greater_iff (not_le.mp greater)).mp
            (nearest _ _ (value?_positive otherCanonical))
          have under := (nearer_less_iff (not_le.mp greater)).mp
            (otherNearest _ _ (value?_positive canonical))
          linarith

-----------------------------------------------------------------------------------------
-- Natural numbers
-----------------------------------------------------------------------------------------

/-- A natural number is turned into the number nearest to it. -/
theorem isNearest_ofNat (n : Nat)
    : IsNearest n (ofNat n) := by
  have nearest := isNearest_ofRatio n one_ne_zero
  rwa [Nat.cast_one, div_one] at nearest

/-- Natural numbers up to the 53rd power of two are their own nearest numbers. -/
theorem value?_ofNat {n : Nat} (exact : n ≤ 2 ^ 53)
    : (ofNat n).value? = some (n : ℚ) :=
  toNat?_eq_some_iff.mp (toNat?_ofNat exact)

end CompilerReports.Binary64
