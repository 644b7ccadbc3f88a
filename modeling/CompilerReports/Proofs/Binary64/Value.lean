import Mathlib.Algebra.Order.Field.Power
import Mathlib.Data.Rat.Cast.Order
import Mathlib.Tactic.Linarith
import Mathlib.Tactic.NormNum
import Mathlib.Tactic.Positivity
import Mathlib.Tactic.FieldSimp
import Mathlib.Tactic.Ring
import CompilerReports.Binary64.Basic

/-! The values of binary64 numbers as rationals. Every number but the infinities and the NaN has a
value, and a number reads as a natural number exactly where that is its value.
-/

namespace CompilerReports.Binary64

/-- The value of a number, where it has one; both zeros have the value zero. -/
def value? : Binary64 → Option ℚ
  | .finite negative significand exponent _ =>
      some ((if negative then -1 else 1) * (significand * 2 ^ exponent))
  | _ => none

/-- A significand and its exponent have a whole value if the exponent is not negative, or if the
power of two that it stands for divides the significand.
-/
theorem wholeMagnitude?_finite_eq_some_iff {negative : Bool} {significand : Nat} {exponent : Int}
    {canonical : Canonical significand exponent} {n : Nat}
    : wholeMagnitude? (.finite negative significand exponent canonical) = some n
      ↔ (significand : ℚ) * 2 ^ exponent = n := by
  simp only [wholeMagnitude?]
  rcases Int.le_total 0 exponent with above | below
  · obtain ⟨k, rfl⟩ := Int.eq_ofNat_of_zero_le above
    have down : (-(k : Int)).toNat = 0 := by omega
    have same : (significand : ℚ) * 2 ^ (k : Int) = n ↔ significand * 2 ^ k = n := by
      rw [zpow_natCast]
      exact_mod_cast Iff.rfl
    rw [same, down]
    simp [Nat.mod_one]
  · obtain ⟨k, rfl⟩ : ∃ k : Nat, exponent = -k := ⟨(-exponent).toNat, by omega⟩
    have down : (-(-(k : Int))).toNat = k := by omega
    have up : (-(k : Int)).toNat = 0 := by omega
    have positive : 0 < 2 ^ k := Nat.two_pow_pos k
    have same : (significand : ℚ) * 2 ^ (-(k : Int)) = n ↔ significand = n * 2 ^ k := by
      rw [zpow_neg, zpow_natCast, ← div_eq_mul_inv, div_eq_iff (by positivity)]
      exact_mod_cast Iff.rfl
    rw [same, down, up]
    change (if significand % 2 ^ k = 0 then some (significand / 2 ^ k * 1) else none) = some n ↔ _
    rw [Nat.mul_one]
    constructor
    · intro read
      split at read
      · rename_i whole
        rw [← Option.some.inj read, Nat.div_mul_cancel (Nat.dvd_of_mod_eq_zero whole)]
      · cases read
    · rintro rfl
      rw [Nat.mul_mod_left, if_pos rfl, Nat.mul_div_cancel n positive]

/-- A number reads as a natural number exactly where that is its value. -/
theorem toNat?_eq_some_iff {x : Binary64} {n : Nat}
    : x.toNat? = some n ↔ x.value? = some (n : ℚ) := by
  cases x with
  | nan | infinite negative => simp [toNat?, value?]
  | finite negative significand exponent canonical =>
      have power : (0 : ℚ) < 2 ^ exponent := by positivity
      simp only [toNat?, value?, Option.some.injEq]
      by_cases below : negative = true ∧ significand ≠ 0
      · obtain ⟨rfl, some⟩ := below
        have positive : (0 : ℚ) < significand := by exact_mod_cast Nat.pos_of_ne_zero some
        have least : (0 : ℚ) < significand * 2 ^ exponent := by positivity
        have natural : (0 : ℚ) ≤ n := Nat.cast_nonneg n
        simp only [Bool.true_and, bne_iff_ne, some, ne_eq, not_false_eq_true, ↓reduceIte,
          reduceCtorEq, false_iff]
        linarith
      · have signless : (if negative then (-1 : ℚ) else 1) * (significand * 2 ^ exponent)
            = significand * 2 ^ exponent := by
          cases negative with
          | false => simp
          | true =>
              have zero : significand = 0 := by simpa using below
              simp [zero]
        have guarded : (negative && significand != 0) = false := by simpa using below
        rw [signless, guarded]
        simp only [Bool.false_eq_true, ↓reduceIte]
        exact wholeMagnitude?_finite_eq_some_iff

end CompilerReports.Binary64
