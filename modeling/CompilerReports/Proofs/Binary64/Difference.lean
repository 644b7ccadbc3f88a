import CompilerReports.Binary64.Difference
import CompilerReports.Proofs.Binary64.Rounding

/-! Differences of binary64 numbers. A difference that the format holds is exact. So one can be
taken from a number without landing on a natural number by chance: below the 53rd power of two the
difference is a natural number exactly where the number is the next one.
-/

namespace CompilerReports.Binary64

-----------------------------------------------------------------------------------------
-- The exact difference
-----------------------------------------------------------------------------------------

theorem value?_one
    : one.value? = some 1 := by
  simp only [one, value?, Bool.false_eq_true, ↓reduceIte, one_mul, Option.some.injEq]
  norm_num

/-- A signed magnitude that is measured in a lesser unit. -/
theorem signed_mul_zpow (negative : Bool) (magnitude : Nat) {unit exponent : Int}
    (lesser : unit ≤ exponent)
    : (signed negative (magnitude * Nat.pow 2 (exponent - unit).toNat) : ℚ) * 2 ^ unit
      = (if negative then -1 else 1) * (magnitude * 2 ^ exponent) := by
  rw [← rescaled_mul_zpow magnitude lesser]
  cases negative <;> simp [signed]

/-- The difference of two finite numbers in the lesser of their units. -/
theorem signed_sub_mul_zpow (negative minus : Bool) (significand taken : Nat) (exponent lower : Int)
    : ((signed negative (significand * Nat.pow 2 (exponent - min exponent lower).toNat)
          - signed minus (taken * Nat.pow 2 (lower - min exponent lower).toNat) : Int) : ℚ)
        * 2 ^ min exponent lower
      = (if negative then -1 else 1) * (significand * 2 ^ exponent)
        - (if minus then -1 else 1) * (taken * 2 ^ lower) := by
  rw [Int.cast_sub, sub_mul, signed_mul_zpow _ _ (min_le_left ..),
    signed_mul_zpow _ _ (min_le_right ..)]

/-- The difference of two numbers of one value is zero. -/
theorem value?_sub_of_eq {x y : Binary64} {a : ℚ} (left : x.value? = some a)
    (right : y.value? = some a)
    : (x.sub y).value? = some 0 := by
  cases x with
  | nan | infinite negative => cases left
  | finite negative significand exponent canonical =>
  cases y with
  | nan | infinite negative => cases right
  | finite minus taken lower lesser =>
  have exact := signed_sub_mul_zpow negative minus significand taken exponent lower
  simp only [value?, Option.some.injEq] at left right
  rw [left, right, sub_self] at exact
  have none := Int.cast_eq_zero.mp
    ((mul_eq_zero.mp exact).resolve_right (zpow_ne_zero _ two_ne_zero))
  simp only [sub, none, ↓reduceIte, zero, value?]
  simp

/-- The difference of two numbers that differ is the rounding of the difference of their values,
which is no less than the least number of the format.
-/
theorem sub_of_ne {x y : Binary64} {a b : ℚ} (left : x.value? = some a) (right : y.value? = some b)
    (different : a ≠ b)
    : ∃ numerator denominator : Nat,
        numerator ≠ 0
        ∧ denominator ≠ 0
        ∧ (numerator : ℚ) / denominator = |a - b|
        ∧ 2 ^ (-1074 : Int) ≤ |a - b|
        ∧ x.sub y = ofRatio (decide (a < b)) numerator denominator := by
  cases x with
  | nan | infinite negative => cases left
  | finite negative significand exponent canonical =>
  cases y with
  | nan | infinite negative => cases right
  | finite minus taken lower lesser =>
  have exact := signed_sub_mul_zpow negative minus significand taken exponent lower
  simp only [value?, Option.some.injEq] at left right
  rw [left, right] at exact
  simp only [sub]
  generalize signed negative _ - signed minus _ = difference at exact ⊢
  generalize unitIs : min exponent lower = unit at exact ⊢
  have power : (0 : ℚ) < 2 ^ unit := by positivity
  have some : difference ≠ 0 := by
    rintro rfl
    exact different (sub_eq_zero.mp (by simpa using exact.symm))
  have size : |a - b| = difference.natAbs * 2 ^ unit := by
    rw [← exact, abs_mul, abs_of_pos power, Nat.cast_natAbs, Int.cast_abs]
  have sign : decide (difference < 0) = decide (a < b) := by
    rw [decide_eq_decide, ← sub_neg (a := a), ← exact, mul_neg_iff]
    simp [power, power.not_gt]
  have counted : (1 : ℚ) ≤ difference.natAbs := by
    exact_mod_cast Nat.one_le_iff_ne_zero.mpr (Int.natAbs_ne_zero.mpr some)
  have least : (2 : ℚ) ^ (-1074 : Int) ≤ 2 ^ unit :=
    zpow_le_zpow_right₀ one_le_two (by have := canonical.2.1; have := lesser.2.1; omega)
  have ratio := inUnits_eq difference.natAbs 1 (-unit)
  simp only [neg_neg, one_mul, Nat.cast_one, div_one, zpow_neg, div_inv_eq_mul] at ratio
  refine ⟨difference.natAbs * Nat.pow 2 unit.toNat, Nat.pow 2 (-unit).toNat, ?_,
    Nat.ne_of_gt (Nat.two_pow_pos _), ratio.trans size.symm, ?_, ?_⟩
  · exact Nat.mul_ne_zero (Int.natAbs_ne_zero.mpr some) (Nat.ne_of_gt (Nat.two_pow_pos _))
  · rw [size]
    exact least.trans (le_mul_of_one_le_left power.le counted)
  · rw [if_neg some, sign]

/-- A difference that the format holds is exact. -/
theorem value?_sub {x y : Binary64} {a b : ℚ} (left : x.value? = some a) (right : y.value? = some b)
    {significand : Nat} {exponent : Int} (fits : significand < 2 ^ 53) (least : -1074 ≤ exponent)
    (most : exponent ≤ 971) (held : |a - b| = significand * 2 ^ exponent)
    : (x.sub y).value? = some (a - b) := by
  by_cases same : a = b
  · subst same
    rw [sub_self]
    exact value?_sub_of_eq left right
  obtain ⟨numerator, denominator, positive, divides, ratio, -, rounded⟩ :=
    sub_of_ne left right same
  rw [rounded, value?_ofRatio_of_eq _ positive divides fits least most (ratio.trans held), ratio]
  rcases lt_or_gt_of_ne same with less | greater
  · simp [less, abs_of_neg (sub_neg.mpr less)]
  · simp [greater.le, abs_of_pos (sub_pos.mpr greater)]

-----------------------------------------------------------------------------------------
-- One less
-----------------------------------------------------------------------------------------

theorem parts_of_value? {x : Binary64} {a : ℚ} (valued : x.value? = some a) (positive : 0 < a)
    : ∃ (significand : Nat) (exponent : Int),
        Canonical significand exponent ∧ a = significand * 2 ^ exponent := by
  cases x with
  | nan | infinite negative => cases valued
  | finite negative significand exponent canonical =>
      refine ⟨significand, exponent, canonical, ?_⟩
      have same := Option.some.inj valued
      cases negative with
      | false => simpa using same.symm
      | true =>
          have magnitude : (0 : ℚ) ≤ significand * 2 ^ exponent := by positivity
          simp only [↓reduceIte] at same
          linarith

/-- A number from one to the 53rd power has a number of the format one below it: the last digit of
its significand is worth no more than one, and taking one off makes the significand no greater.
-/
theorem held_sub_one {x : Binary64} {a : ℚ} (valued : x.value? = some a) (least : 1 ≤ a)
    (most : a ≤ 2 ^ 53)
    : ∃ (less : Nat) (unit : Int),
        less < 2 ^ 53 ∧ -1074 ≤ unit ∧ unit ≤ 971 ∧ a - 1 = less * 2 ^ unit := by
  obtain ⟨significand, exponent, ⟨fits, low, high, filled⟩, rfl⟩ :=
    parts_of_value? valued (by linarith)
  rcases le_or_gt exponent 0 with whole | coarse
  · obtain ⟨k, rfl⟩ : ∃ k : Nat, exponent = -k := ⟨(-exponent).toNat, by omega⟩
    have power : (0 : ℚ) < 2 ^ k := by positivity
    rw [zpow_neg, zpow_natCast, ← div_eq_mul_inv] at least ⊢
    have reached : 2 ^ k ≤ significand := by exact_mod_cast (one_le_div power).mp least
    refine ⟨significand - 2 ^ k, -k, lt_of_le_of_lt (Nat.sub_le ..) fits, low, high, ?_⟩
    rw [zpow_neg, zpow_natCast, ← div_eq_mul_inv, Nat.cast_sub reached, sub_div]
    push_cast
    rw [div_self power.ne']
  · have reached : (2 : ℚ) ^ 52 ≤ significand := by
      exact_mod_cast filled.resolve_right (by omega)
    have above : (2 : ℚ) ^ 53 ≤ significand * 2 ^ exponent := by
      calc (2 : ℚ) ^ 53 = (2 : ℚ) ^ 52 * (2 : ℚ) ^ (1 : Int) := by norm_num
        _ ≤ (significand : ℚ) * 2 ^ exponent := by
            gcongr
            · exact one_le_two
            · omega
    refine ⟨2 ^ 53 - 1, 0, by decide, by decide, by decide, ?_⟩
    rw [le_antisymm most above]
    norm_num

/-- Beyond the 53rd power a number is whole, so that one less is no lower than that power. -/
theorem le_sub_one {x : Binary64} {a : ℚ} (valued : x.value? = some a) (high : 2 ^ 53 < a)
    : 2 ^ 53 ≤ a - 1 := by
  obtain ⟨significand, exponent, canonical, rfl⟩ := parts_of_value? valued (by linarith)
  have coarse : 0 ≤ exponent := by
    by_contra fine
    have under := lt_filled canonical.1 (show exponent < 1 by omega)
    norm_num at under high
    exact absurd high under.not_gt
  obtain ⟨k, rfl⟩ := Int.eq_ofNat_of_zero_le coarse
  rw [zpow_natCast] at high ⊢
  have next : 2 ^ 53 + 1 ≤ significand * 2 ^ k := by exact_mod_cast high
  have cast : (2 : ℚ) ^ 53 + 1 ≤ significand * 2 ^ k := by exact_mod_cast next
  linarith

/-- Below the 53rd power one less than a number is a natural number exactly where the number is the
next one. Witness: by where the number lies. Below one the difference is less than zero, and not
by so little that it would vanish; from there to the 53rd power it is exact; above, it is too great.
-/
theorem toNat?_sub_one {x : Binary64} {n : Nat} (small : n < 2 ^ 53)
    : (x.sub one).toNat? = some n ↔ x.toNat? = some (n + 1) := by
  simp only [toNat?_eq_some_iff]
  have natural : (0 : ℚ) ≤ n := Nat.cast_nonneg n
  have bound : ((n + 1 : Nat) : ℚ) ≤ 2 ^ 53 := by exact_mod_cast small
  push_cast at bound ⊢
  cases valued : x.value? with
  | none =>
      cases x with
      | nan | infinite negative => simp [sub, one, value?]
      | finite negative significand exponent canonical => cases valued
  | some a =>
  rw [Option.some.injEq]
  rcases lt_or_ge a 1 with low | least
  · obtain ⟨_, _, positive, divides, ratio, vast, rounded⟩ :=
      sub_of_ne valued value?_one low.ne
    refine iff_of_false (fun read => ?_) (fun next => by linarith)
    obtain ⟨value, same, sides⟩ := sameSide_of_value? positive divides (rounded ▸ read)
    have above := sides.above 1 (-1074) (by decide) (le_refl _) (by
      rwa [ratio, Nat.cast_one, one_mul])
    have nonzero : 0 < value := lt_of_lt_of_le (by positivity) above
    simp only [low, decide_true, ↓reduceIte] at same
    linarith
  rcases le_or_gt a (2 ^ 53) with most | high
  · obtain ⟨less, unit, fits, lowest, highest, held⟩ := held_sub_one valued least most
    have exact : |a - 1| = less * 2 ^ unit := by rw [abs_of_nonneg (by linarith), held]
    rw [value?_sub valued value?_one fits lowest highest exact, Option.some.injEq,
      sub_eq_iff_eq_add]
  · have far := le_sub_one valued high
    refine iff_of_false (fun read => ?_) (fun next => by linarith)
    obtain ⟨_, _, positive, divides, ratio, -, rounded⟩ :=
      sub_of_ne valued value?_one (by linarith : 1 < a).ne'
    obtain ⟨value, same, sides⟩ := sameSide_of_value? positive divides (rounded ▸ read)
    have above := sides.above (2 ^ 52) 1 (by decide) (by decide) (by
      rw [ratio, abs_of_nonneg (by linarith)]
      norm_num at far ⊢
      exact far)
    simp only [least.not_gt, decide_false, Bool.false_eq_true, ↓reduceIte, one_mul] at same
    norm_num at above bound
    linarith

/-- Above that power one less may lie halfway between two numbers, and goes to the even one. -/
example : ((ofNat (2 ^ 53 + 2)).sub one).toNat? = some (2 ^ 53) := by
  decide

end CompilerReports.Binary64
