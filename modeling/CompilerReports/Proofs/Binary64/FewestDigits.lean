import CompilerReports.Proofs.Binary64.Nearest

/-! The shortest decimal of a number has no more digits than any decimal that reads back to the
number, and is as near to it as any other one of its length. Three facts carry this. Whatever lies
between two ratios that are rounded to a number is rounded to it too. A decimal of few digits does
not lie between the two neighbours of the value on the grid of so many digits. And numbers are so
far apart that a neighbour on the grid of seventeen digits is rounded to the number.
-/

namespace CompilerReports.Binary64

-----------------------------------------------------------------------------------------
-- The ratios that are rounded to a number
-----------------------------------------------------------------------------------------

/-- A decimal is read as the number nearest to its value. -/
theorem isNearest_ofDecimal (digits : Nat) (exponent : Int)
    : IsNearest (digits * 10 ^ exponent) (ofDecimal false digits exponent) := by
  by_cases none : digits = 0
  · have nearest := isNearest_ofRatio 0 one_ne_zero
    rw [Nat.cast_zero, zero_div] at nearest
    rw [none, Nat.cast_zero, zero_mul]
    exact nearest
  · rw [ofDecimal_eq_ofRatio false none, ← decimal_ratio]
    exact isNearest_ofRatio _ (Nat.ne_of_gt (Nat.pow_pos (by decide)))

/-- So the decimals that read back to a number are those that the number is nearest to. -/
theorem ofDecimal_eq_iff {digits : Nat} {exponent : Int} {x : Binary64}
    : ofDecimal false digits exponent = x ↔ IsNearest (digits * 10 ^ exponent) x :=
  ⟨fun same => same ▸ isNearest_ofDecimal digits exponent,
    (isNearest_ofDecimal digits exponent).unique⟩

/-- Two ratios are rounded to one number if neither number is greater than the other. -/
theorem IsNearest.eq_of_atMost {ratio other : ℚ} {x y : Binary64} (first : IsNearest ratio x)
    (second : IsNearest other y) (under : AtMost x y) (back : AtMost y x)
    : x = y := by
  cases first with
  | infinite =>
      cases second with
      | infinite => rfl
      | finite =>
          cases under with
          | values left => cases left
  | finite canonical =>
      cases second with
      | infinite =>
          cases back with
          | values left => cases left
      | finite otherCanonical =>
          cases under with
          | values left right up =>
          cases back with
          | values left' right' down =>
              rw [value?_positive, Option.some.injEq] at left right left' right'
              subst left right
              rw [← left', ← right'] at down
              obtain ⟨rfl, rfl⟩ := parts_unique otherCanonical canonical.1 canonical.2.1
                canonical.2.2.2 (le_antisymm up down)
              rfl

/-- What lies between two ratios that are rounded to a number is rounded to it too. -/
theorem IsNearest.between {low middle high : ℚ} {x y : Binary64} (first : IsNearest low x)
    (last : IsNearest high x) (inside : IsNearest middle y) (above : low ≤ middle)
    (below : middle ≤ high)
    : IsNearest middle x := by
  have same := first.eq_of_atMost inside (first.atMost inside above) (inside.atMost last below)
  rwa [same]

section

variable {significand : Nat} {exponent : Int}

/-- The value of a number is rounded to the number. -/
theorem isNearest_self (canonical : Canonical significand exponent) (positive : significand ≠ 0)
    : IsNearest (significand * 2 ^ exponent) (.finite false significand exponent canonical) := by
  rw [← exactDecimal_value]
  exact ofDecimal_eq_iff.mp (ofDecimal_exactDecimal canonical positive)

/-- The difference of two numbers is no less than a 2 ^ 53rd part of the greater one: it is no less
than the last bit of the less one, whose significand has 53 bits at most.
-/
theorem le_mul_difference {other : Nat} {unit : Int} (canonical : Canonical significand exponent)
    (otherCanonical : Canonical other unit)
    (less : (significand : ℚ) * 2 ^ exponent < other * 2 ^ unit)
    : (other : ℚ) * 2 ^ unit ≤ 2 ^ 53 * (other * 2 ^ unit - significand * 2 ^ exponent) := by
  have next := succ_mul_le canonical otherCanonical less
  have fits : ((significand + 1 : Nat) : ℚ) ≤ 2 ^ 53 := by exact_mod_cast canonical.1
  have power : (0 : ℚ) < 2 ^ exponent := by positivity
  generalize (other : ℚ) * 2 ^ unit = greater at *
  generalize (2 : ℚ) ^ exponent = bit at *
  have whole : ((significand + 1 : Nat) : ℚ) * bit ≤ 2 ^ 53 * bit := by gcongr
  push_cast at next whole
  linarith

/-- Numbers of different values are apart by a 2 ^ 53rd part of either value. -/
theorem le_mul_distance (canonical : Canonical significand exponent) {y : Binary64} {value : ℚ}
    (valued : y.value? = some value)
    : value = significand * 2 ^ exponent
      ∨ (significand : ℚ) * 2 ^ exponent ≤ 2 ^ 53 * |significand * 2 ^ exponent - value| := by
  obtain ⟨negative, other, unit, otherCanonical, rfl⟩ := exists_parts_of_value? valued
  have own : (0 : ℚ) ≤ significand * 2 ^ exponent := by positivity
  have others : (0 : ℚ) ≤ other * 2 ^ unit := by positivity
  cases negative with
  | true =>
      refine Or.inr ?_
      simp only [↓reduceIte, neg_one_mul, sub_neg_eq_add]
      rw [abs_of_nonneg (add_nonneg own others)]
      linarith
  | false =>
      simp only [Bool.false_eq_true, ↓reduceIte, one_mul]
      rcases lt_trichotomy ((other : ℚ) * 2 ^ unit) (significand * 2 ^ exponent)
        with less | same | greater
      · rw [abs_of_pos (sub_pos.mpr less)]
        exact Or.inr (le_mul_difference otherCanonical canonical less)
      · exact Or.inl same
      · rw [abs_of_neg (sub_neg.mpr greater), neg_sub]
        exact Or.inr (greater.le.trans (le_mul_difference canonical otherCanonical greater))

/-- A ratio that differs from a number by less than a 2 ^ 54th part is below the infinite ones. -/
theorem lt_infiniteFrom (canonical : Canonical significand exponent) {ratio : ℚ}
    (close : 2 ^ 54 * |ratio - significand * 2 ^ exponent| < significand * 2 ^ exponent)
    : ratio < infiniteFrom := by
  have most := le_longest canonical.1 canonical.2.2.1
  have middle := two_mul_infiniteFrom
  have next : ((2 ^ 52 : Nat) : ℚ) * 2 ^ (972 : Int) = 2 ^ 53 * 2 ^ (971 : Int) := by
    have power : (972 : Int) = 971 + 1 := rfl
    rw [power, zpow_add_one₀ two_ne_zero]
    generalize (2 : ℚ) ^ (971 : Int) = last
    push_cast
    ring
  have short := le_abs_self (ratio - significand * 2 ^ exponent)
  have filled : ((2 ^ 53 - 1 : Nat) : ℚ) = 2 ^ 53 - 1 := by norm_num
  have bit : (0 : ℚ) < 2 ^ (971 : Int) := by positivity
  rw [filled] at most middle
  rw [next] at middle
  generalize (2 : ℚ) ^ (971 : Int) = last at most middle bit
  linarith

/-- Such a ratio is rounded to the number. -/
theorem isNearest_of_close (canonical : Canonical significand exponent) {ratio : ℚ}
    (close : 2 ^ 54 * |ratio - significand * 2 ^ exponent| < significand * 2 ^ exponent)
    : IsNearest ratio (.finite false significand exponent canonical) := by
  have farther : ∀ (y : Binary64) value,
      y.value? = some value
      → value = significand * 2 ^ exponent
        ∨ |ratio - significand * 2 ^ exponent| < |ratio - value| := by
    intro y value valued
    refine (le_mul_distance canonical valued).imp_right fun apart => ?_
    have triangle := abs_sub_le ((significand : ℚ) * 2 ^ exponent) ratio value
    rw [abs_sub_comm _ ratio] at triangle
    linarith
  refine .finite canonical (lt_infiniteFrom canonical close) ?_ ?_
  · intro y value valued
    rcases farther y value valued with same | far
    · rw [same]
    · exact far.le
  · exact fun y value valued tie => (farther y value valued).imp_right fun far =>
      absurd tie far.ne'

end

-----------------------------------------------------------------------------------------
-- Ratios and powers of ten
-----------------------------------------------------------------------------------------

theorem decimalLength_le_iff {n count : Nat} (positive : 0 < count)
    : decimalLength n ≤ count ↔ n < 10 ^ count :=
  Nat.length_toDigits_le_iff (by decide) positive

theorem decimalLength_pos (n : Nat)
    : 0 < decimalLength n :=
  List.length_pos_iff.mpr Nat.toDigits_ne_nil

/-- The number of digits bounds a positive whole number by powers of ten. -/
theorem exists_decimalLength {n : Nat} (positive : n ≠ 0)
    : ∃ k, decimalLength n = k + 1 ∧ 10 ^ k ≤ n ∧ n < 10 ^ (k + 1) := by
  obtain ⟨k, length⟩ := Nat.exists_eq_succ_of_ne_zero (decimalLength_pos n).ne'
  refine ⟨k, length, ?_, (decimalLength_le_iff (Nat.succ_pos k)).mp length.le⟩
  cases k with
  | zero => exact Nat.one_le_iff_ne_zero.mpr positive
  | succ k =>
      by_contra less
      have short := (decimalLength_le_iff (Nat.succ_pos k)).mpr (not_le.mp less)
      omega

namespace Ratio

/-- The rational number that a ratio stands for. -/
def toRat (value : Ratio) : ℚ := value.numerator / value.denominator

theorem toRat_ofParts (significand : Nat) (exponent : Int)
    : (ofParts significand exponent).toRat = significand * 2 ^ exponent := by
  rw [toRat, ofParts, ratio_ofPower, Nat.cast_ofNat]

theorem toRat_inUnits (value : Ratio) (exponent : Int)
    : (value.inUnits exponent).toRat = value.toRat / 10 ^ exponent := by
  simp only [toRat, inUnits]
  rw [ratio_inUnits, Nat.cast_ofNat]

/-- The power of ten above a positive ratio is the least one that lies above it. -/
theorem powerOfTenAbove_spec {value : Ratio} (positive : value.numerator ≠ 0)
    (divides : value.denominator ≠ 0)
    : (10 : ℚ) ^ (value.powerOfTenAbove - 1) ≤ value.toRat
      ∧ value.toRat < 10 ^ value.powerOfTenAbove := by
  obtain ⟨numerator, denominator⟩ := value
  have top : 0 < numerator := Nat.pos_of_ne_zero positive
  have bottom : 0 < denominator := Nat.pos_of_ne_zero divides
  have divisor : (0 : ℚ) < denominator := by exact_mod_cast bottom
  simp only [toRat, powerOfTenAbove]
  split
  case isTrue reached =>
    obtain ⟨k, length, least, most⟩ := exists_decimalLength (Nat.div_pos reached bottom).ne'
    rw [Nat.le_div_iff_mul_le bottom] at least
    rw [Nat.div_lt_iff_lt_mul bottom] at most
    rw [length, le_div_iff₀ divisor, div_lt_iff₀ divisor]
    push_cast
    rw [add_sub_cancel_right, zpow_natCast]
    exact ⟨by exact_mod_cast least, by exact_mod_cast most⟩
  case isFalse missed =>
    obtain ⟨k, length, least, most⟩ :=
      exists_decimalLength (Nat.div_pos (show numerator ≤ denominator - 1 by omega) top).ne'
    rw [Nat.le_div_iff_mul_le top] at least
    rw [Nat.div_lt_iff_lt_mul top] at most
    have low : (1 : Int) - (k + 1 : Nat) - 1 = -(k + 1 : Nat) := by omega
    have high : (1 : Int) - (k + 1 : Nat) = -k := by omega
    rw [length, low, high, zpow_neg, zpow_neg, zpow_natCast, zpow_natCast, le_div_iff₀ divisor,
      div_lt_iff₀ divisor, inv_mul_le_iff₀ (by positivity), lt_inv_mul_iff₀ (by positivity)]
    have reached : denominator ≤ 10 ^ (k + 1) * numerator := by omega
    have short : 10 ^ k * numerator < denominator := by omega
    exact ⟨by exact_mod_cast reached, by exact_mod_cast short⟩

-----------------------------------------------------------------------------------------
-- Neighbours on a grid
-----------------------------------------------------------------------------------------

/-- The neighbour below a value on the grid of `10 ^ exponent`, in units of the grid. -/
def below (value : Ratio) (exponent : Int) : Nat :=
  (value.inUnits exponent).numerator / (value.inUnits exponent).denominator

/-- (Neighbour value target exponent found) lists what a look at the two neighbours of the value
finds: nothing where neither is rounded to the target, else one that is, and that is no farther
from the value than the other one if that is rounded to the target too.
-/
inductive Neighbour (value : Ratio) (target : Binary64) (exponent : Int)
    : Option Decimal → Prop where
  | neither
    (belowMisses : ¬ IsNearest (value.below exponent * 10 ^ exponent) target)
    (aboveMisses : ¬ IsNearest ((value.below exponent + 1 : Nat) * 10 ^ exponent) target)
    : Neighbour value target exponent none
  | below
    (reads : IsNearest (value.below exponent * 10 ^ exponent) target)
    (nearer
      : IsNearest ((value.below exponent + 1 : Nat) * 10 ^ exponent) target
        → value.toRat - value.below exponent * 10 ^ exponent
          ≤ (value.below exponent + 1 : Nat) * 10 ^ exponent - value.toRat)
    : Neighbour value target exponent (some ⟨value.below exponent, exponent⟩)
  | above
    (reads : IsNearest ((value.below exponent + 1 : Nat) * 10 ^ exponent) target)
    (nearer
      : IsNearest (value.below exponent * 10 ^ exponent) target
        → (value.below exponent + 1 : Nat) * 10 ^ exponent - value.toRat
          ≤ value.toRat - value.below exponent * 10 ^ exponent)
    : Neighbour value target exponent (some ⟨value.below exponent + 1, exponent⟩)

section

variable {value : Ratio} {target : Binary64} {exponent : Int}

theorem inUnits_denominator_ne_zero (divides : value.denominator ≠ 0) (exponent : Int)
    : (value.inUnits exponent).denominator ≠ 0 :=
  Nat.mul_ne_zero divides (Nat.ne_of_gt (Nat.pow_pos (by decide)))

/-- A value lies between its two neighbours, on the near side of their middle to the one that the
search takes for the nearer one.
-/
theorem below_spec (divides : value.denominator ≠ 0) (exponent : Int)
    : let measured := value.inUnits exponent
      let low : ℚ := value.below exponent * 10 ^ exponent
      let high : ℚ := (value.below exponent + 1 : Nat) * 10 ^ exponent
      let twice := 2 * (measured.numerator % measured.denominator)
      low ≤ value.toRat
      ∧ value.toRat < high
      ∧ (twice ≤ measured.denominator → value.toRat - low ≤ high - value.toRat)
      ∧ (measured.denominator ≤ twice → high - value.toRat ≤ value.toRat - low) := by
  intro measured low high twice
  have grid : (0 : ℚ) < 10 ^ exponent := by positivity
  obtain ⟨part, ratio, least, most, under, half⟩ := exists_part measured.numerator
    (inUnits_denominator_ne_zero divides exponent)
  have scaled : value.toRat = (value.below exponent + part) * 10 ^ exponent := by
    rw [← div_eq_iff grid.ne', ← toRat_inUnits]
    exact ratio
  have toLow : value.toRat - low = part * 10 ^ exponent := by
    rw [scaled]
    ring
  have toHigh : high - value.toRat = (1 - part) * 10 ^ exponent := by
    rw [scaled]
    push_cast [high]
    ring
  refine ⟨sub_nonneg.mp ?_, sub_pos.mp ?_, fun short => ?_, fun long => ?_⟩
  · rw [toLow]
    positivity
  · rw [toHigh]
    exact mul_pos (sub_pos.mpr most) grid
  · rw [toLow, toHigh]
    gcongr
    rcases short.lt_or_eq with less | tie
    · linarith [under.mpr less]
    · linarith [half.mpr tie]
  · rw [toLow, toHigh]
    gcongr
    have reached := le_of_not_gt (under.not.mpr (not_lt.mpr long))
    linarith

theorem neighbour?_spec (divides : value.denominator ≠ 0) (target : Binary64) (exponent : Int)
    : Neighbour value target exponent (value.neighbour? target exponent) := by
  obtain ⟨-, -, toLow, toHigh⟩ := below_spec divides exponent
  have low : (value.inUnits exponent).numerator / (value.inUnits exponent).denominator
      = value.below exponent := rfl
  simp only [neighbour?, low]
  split
  case isTrue taken =>
    simp only [Bool.and_eq_true, Bool.or_eq_true, Bool.not_eq_true', decide_eq_true_eq,
      decide_eq_false_iff_not, ofDecimal_eq_iff] at taken
    refine .below taken.1 fun reads => toLow ?_
    have nearer := taken.2.resolve_right (not_not.mpr reads)
    omega
  case isFalse passed =>
    simp only [Bool.and_eq_true, Bool.or_eq_true, Bool.not_eq_true', decide_eq_true_eq,
      decide_eq_false_iff_not, ofDecimal_eq_iff] at passed
    split
    case isTrue reads =>
      rw [decide_eq_true_eq, ofDecimal_eq_iff] at reads
      refine .above reads fun belowReads => toHigh ?_
      have farther : ¬ _ := fun nearer => passed ⟨belowReads, Or.inl nearer⟩
      omega
    case isFalse missed =>
      rw [decide_eq_true_eq, ofDecimal_eq_iff] at missed
      exact .neither (fun belowReads => passed ⟨belowReads, Or.inr missed⟩) missed

-----------------------------------------------------------------------------------------
-- Decimals of few digits
-----------------------------------------------------------------------------------------

/-- A decimal with no more digits than the neighbour below does not lie between the neighbours: it
is on the grid, or less than the power of ten that the neighbour below reaches.
-/
theorem not_between (exponent : Int) {digits count low : Nat} {unit : Int} (long : 10 ^ count ≤ low)
    (short : digits < 10 ^ (count + 1))
    : (digits : ℚ) * 10 ^ unit ≤ low * 10 ^ exponent
      ∨ ((low + 1 : Nat) : ℚ) * 10 ^ exponent ≤ digits * 10 ^ unit := by
  have grid : (0 : ℚ) < 10 ^ exponent := by positivity
  rcases le_or_gt exponent unit with order | order
  · have rescaled : ((digits * Nat.pow 10 (unit - exponent).toNat : Nat) : ℚ) * 10 ^ exponent
        = digits * 10 ^ unit := mod_cast mul_zpow_inUnits (by decide) digits order
    rw [← rescaled, mul_le_mul_iff_left₀ grid, mul_le_mul_iff_left₀ grid]
    exact_mod_cast le_or_gt (digits * Nat.pow 10 (unit - exponent).toNat) low
  · left
    calc (digits : ℚ) * 10 ^ unit
        ≤ 10 ^ ((count : Int) + 1) * 10 ^ unit := by
          gcongr
          exact_mod_cast short.le
      _ = 10 ^ ((count : Int) + 1 + unit) := (zpow_add₀ (by norm_num) _ _).symm
      _ ≤ 10 ^ ((count : Int) + exponent) := zpow_le_zpow_right₀ (by norm_num) (by omega)
      _ = 10 ^ (count : Int) * 10 ^ exponent := zpow_add₀ (by norm_num) _ _
      _ ≤ low * 10 ^ exponent := by
          gcongr
          exact_mod_cast long

/-- So if such a decimal is rounded to the target, the neighbour on its side of the value is too. -/
theorem neighbour_reads (divides : value.denominator ≠ 0) (own : IsNearest value.toRat target)
    {digits count : Nat} {unit : Int} (long : 10 ^ count ≤ value.below exponent)
    (short : digits < 10 ^ (count + 1)) (reads : IsNearest (digits * 10 ^ unit) target)
    : ((digits : ℚ) * 10 ^ unit ≤ value.below exponent * 10 ^ exponent
        ∧ IsNearest (value.below exponent * 10 ^ exponent) target)
      ∨ (((value.below exponent + 1 : Nat) : ℚ) * 10 ^ exponent ≤ digits * 10 ^ unit
        ∧ IsNearest ((value.below exponent + 1 : Nat) * 10 ^ exponent) target) := by
  obtain ⟨low, high, -, -⟩ := below_spec divides exponent
  rcases not_between exponent long short with under | past
  · exact Or.inl ⟨under, reads.between own (isNearest_ofDecimal ..) under low⟩
  · exact Or.inr ⟨past, own.between reads (isNearest_ofDecimal ..) high.le past⟩

/-- What is found is no farther from the value than any such decimal that reads back. -/
theorem Neighbour.nearest {decimal : Decimal}
    (found : Neighbour value target exponent (some decimal)) (divides : value.denominator ≠ 0)
    (own : IsNearest value.toRat target) {digits count : Nat} {unit : Int}
    (long : 10 ^ count ≤ value.below exponent) (short : digits < 10 ^ (count + 1))
    (reads : IsNearest (digits * 10 ^ unit) target)
    : |value.toRat - decimal.digits * 10 ^ decimal.exponent|
      ≤ |value.toRat - digits * 10 ^ unit| := by
  obtain ⟨low, high, -, -⟩ := below_spec divides exponent
  have side := neighbour_reads divides own long short reads
  cases found with
  | below _ nearer =>
      rw [abs_of_nonneg (sub_nonneg.mpr low)]
      rcases side with ⟨under, -⟩ | ⟨past, aboveReads⟩
      · exact (sub_le_sub_left under _).trans (le_abs_self _)
      · rw [abs_sub_comm]
        exact (nearer aboveReads).trans ((sub_le_sub_right past _).trans (le_abs_self _))
  | above _ nearer =>
      rw [abs_sub_comm, abs_of_pos (sub_pos.mpr high)]
      rcases side with ⟨under, belowReads⟩ | ⟨past, -⟩
      · exact (nearer belowReads).trans ((sub_le_sub_left under _).trans (le_abs_self _))
      · rw [abs_sub_comm]
        exact (sub_le_sub_right past _).trans (le_abs_self _)

/-- Where nothing is found, no such decimal reads back. -/
theorem Neighbour.no_decimal (found : Neighbour value target exponent none)
    (divides : value.denominator ≠ 0) (own : IsNearest value.toRat target) {digits count : Nat}
    {unit : Int} (long : 10 ^ count ≤ value.below exponent) (short : digits < 10 ^ (count + 1))
    : ¬ IsNearest (digits * 10 ^ unit) target := by
  intro reads
  cases found with
  | neither belowMisses aboveMisses =>
      rcases neighbour_reads divides own long short reads with ⟨-, below⟩ | ⟨-, above⟩
      · exact belowMisses below
      · exact aboveMisses above

/-- The neighbour below on the grid of so many digits has so many digits. -/
theorem below_bounds (positive : value.numerator ≠ 0) (divides : value.denominator ≠ 0)
    (count : Nat)
    : 10 ^ count ≤ value.below (value.powerOfTenAbove - count - 1)
      ∧ value.below (value.powerOfTenAbove - count - 1) < 10 ^ (count + 1) := by
  obtain ⟨least, most⟩ := powerOfTenAbove_spec positive divides
  obtain ⟨low, high, -, -⟩ := below_spec divides (value.powerOfTenAbove - count - 1)
  have grid : (0 : ℚ) < 10 ^ (value.powerOfTenAbove - count - 1) := by positivity
  have reached : (10 : ℚ) ^ count * 10 ^ (value.powerOfTenAbove - count - 1)
      = 10 ^ (value.powerOfTenAbove - 1) := by
    rw [← zpow_natCast, ← zpow_add₀ (by norm_num)]
    congr 1
    omega
  have passed : (10 : ℚ) ^ (count + 1) * 10 ^ (value.powerOfTenAbove - count - 1)
      = 10 ^ value.powerOfTenAbove := by
    rw [← zpow_natCast, ← zpow_add₀ (by norm_num)]
    congr 1
    push_cast
    omega
  constructor
  · refine Nat.lt_succ_iff.mp ?_
    have less := lt_of_mul_lt_mul_right (reached.trans_le least |>.trans_lt high) grid.le
    exact_mod_cast less
  · have less := lt_of_mul_lt_mul_right (low.trans_lt (most.trans_eq passed.symm)) grid.le
    exact_mod_cast less

end

end Ratio

section

variable {significand : Nat} {exponent : Int}

/-- On the grid of seventeen digits one of the neighbours of a number is rounded to it: the nearer
one is off by half a unit of the grid at most, which is less than a 2 ^ 54th part of the number.
-/
theorem neighbour?_seventeen_ne_none (canonical : Canonical significand exponent)
    (positive : significand ≠ 0)
    : let value := Ratio.ofParts significand exponent
      value.neighbour? (.finite false significand exponent canonical)
        (value.powerOfTenAbove - (16 : Nat) - 1) ≠ none := by
  intro value absent
  have divides : value.denominator ≠ 0 := Nat.ne_of_gt (Nat.two_pow_pos _)
  have someNumerator : value.numerator ≠ 0 :=
    Nat.mul_ne_zero positive (Nat.ne_of_gt (Nat.two_pow_pos _))
  have held : value.toRat = significand * 2 ^ exponent := Ratio.toRat_ofParts significand exponent
  have found := Ratio.neighbour?_spec divides (.finite false significand exponent canonical)
    (value.powerOfTenAbove - (16 : Nat) - 1)
  obtain ⟨long, -⟩ := Ratio.below_bounds someNumerator divides 16
  obtain ⟨low, high, -, -⟩ :=
    Ratio.below_spec divides (value.powerOfTenAbove - (16 : Nat) - 1)
  rw [absent] at found
  generalize value.powerOfTenAbove - (16 : Nat) - 1 = grid at *
  have unit : (0 : ℚ) < 10 ^ grid := by positivity
  have reached : (10 ^ 16 : ℚ) * 10 ^ grid ≤ value.below grid * 10 ^ grid := by
    gcongr
    exact_mod_cast long
  have next : ((value.below grid + 1 : Nat) : ℚ) * 10 ^ grid
      = value.below grid * 10 ^ grid + 10 ^ grid := by
    push_cast
    ring
  cases found with
  | neither belowMisses aboveMisses =>
      rw [next] at high aboveMisses
      have toLow := mt (isNearest_of_close canonical) belowMisses
      have toHigh := mt (isNearest_of_close canonical) aboveMisses
      rw [← held, abs_sub_comm, abs_of_nonneg (sub_nonneg.mpr low), not_lt] at toLow
      rw [← held, abs_of_pos (sub_pos.mpr high), not_lt] at toHigh
      linarith

-----------------------------------------------------------------------------------------
-- The search
-----------------------------------------------------------------------------------------

/-- The first answer along the natural numbers is that of a number below which there is none. -/
theorem exists_first_of_findSome?_range {α : Type} {f : Nat → Option α} {count : Nat} {answer : α}
    (found : (List.range count).findSome? f = some answer)
    : ∃ i, f i = some answer ∧ ∀ j < i, f j = none := by
  obtain ⟨before, i, after, split, answered, unanswered⟩ := List.findSome?_eq_some_iff.mp found
  rw [List.range_eq_range'] at split
  obtain ⟨k, -, rfl, rest⟩ := List.range'_eq_append_iff.mp split
  have first : i = k := by
    have head := congrArg List.head? rest
    rw [List.head?_cons, List.head?_range'] at head
    split at head
    · cases head
    · simpa using head
  subst first
  exact ⟨i, answered, fun j less => unanswered j (by simpa using less)⟩

/-- What the search finds first is on the grid of the first number of digits at which some decimal
reads back, and none of that many digits that reads back is nearer.
-/
theorem Ratio.search_spec {value : Ratio} {target : Binary64} (positive : value.numerator ≠ 0)
    (divides : value.denominator ≠ 0) (own : IsNearest value.toRat target) {most : Nat}
    {decimal : Decimal}
    (found
      : ((List.range most).findSome? fun (n : Nat) =>
          value.neighbour? target (value.powerOfTenAbove - n - 1)) = some decimal)
    : ∃ count,
        decimal.digits ≤ 10 ^ (count + 1)
        ∧ ∀ (digits : Nat) (unit : Int),
            IsNearest (digits * 10 ^ unit) target
            → count < decimalLength digits
              ∧ (decimalLength digits ≤ count + 1
                → |value.toRat - decimal.digits * 10 ^ decimal.exponent|
                  ≤ |value.toRat - digits * 10 ^ unit|) := by
  obtain ⟨count, answered, unanswered⟩ := exists_first_of_findSome?_range found
  have taken := neighbour?_spec divides target (value.powerOfTenAbove - count - 1)
  rw [answered] at taken
  obtain ⟨long, short⟩ := below_bounds positive divides count
  refine ⟨count, ?_, fun digits unit reads => ⟨?_, fun few => ?_⟩⟩
  · cases taken with
    | below => exact short.le
    | above => exact short
  · by_contra few
    have some := decimalLength_pos digits
    obtain ⟨less, rfl⟩ := Nat.exists_eq_succ_of_ne_zero (show count ≠ 0 by omega)
    have missed := neighbour?_spec divides target (value.powerOfTenAbove - less - 1)
    rw [unanswered less (Nat.lt_succ_self less)] at missed
    exact missed.no_decimal divides own (below_bounds positive divides less).1
      ((decimalLength_le_iff (Nat.succ_pos less)).mp (not_lt.mp few)) reads
  · exact taken.nearest divides own long ((decimalLength_le_iff (Nat.succ_pos count)).mp few) reads

/-- No decimal that reads back to a number has fewer digits than its shortest one, a power of ten at
the end of its grid apart, and none of as few digits is nearer.
-/
theorem shortest_spec (canonical : Canonical significand exponent) (positive : significand ≠ 0)
    : ∃ count,
        (shortest significand exponent).digits ≤ 10 ^ (count + 1)
        ∧ ∀ (digits : Nat) (unit : Int),
            IsNearest (digits * 10 ^ unit) (.finite false significand exponent canonical)
            → count < decimalLength digits
              ∧ (decimalLength digits ≤ count + 1
                → |(significand : ℚ) * 2 ^ exponent
                    - (shortest significand exponent).digits
                      * 10 ^ (shortest significand exponent).exponent|
                  ≤ |(significand : ℚ) * 2 ^ exponent - digits * 10 ^ unit|) := by
  have target : ofParts false significand exponent
      = .finite false significand exponent canonical := dif_pos canonical
  have held := Ratio.toRat_ofParts significand exponent
  simp only [shortest, target]
  cases found : (List.range 17).findSome? _ with
  | none =>
      have seventeen := List.findSome?_eq_none_iff.mp found 16 (by decide)
      exact absurd seventeen (neighbour?_seventeen_ne_none canonical positive)
  | some answer =>
      rw [← held]
      exact Ratio.search_spec (Nat.mul_ne_zero positive (Nat.ne_of_gt (Nat.two_pow_pos _)))
        (Nat.ne_of_gt (Nat.two_pow_pos _)) (held ▸ isNearest_self canonical positive) found

end

end CompilerReports.Binary64
