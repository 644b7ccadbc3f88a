import CompilerReports.Binary64.Basic

/-! Rounding exact ratios to binary64: the nearest number, and of two equally near ones the one
with the even significand. All arithmetic is on natural numbers, so no digit is ever lost
before the one rounding step.
-/

namespace CompilerReports.Binary64

/-- The whole number nearest to `numerator / denominator`, the even one of two. -/
def roundHalfEven (numerator denominator : Nat) : Nat :=
  let quotient := numerator / denominator
  let twice := 2 * (numerator % denominator)
  if twice < denominator ∨ (twice = denominator ∧ quotient % 2 = 0) then
    quotient
  else
    quotient + 1

/-- Whether `numerator / denominator` reaches `2 ^ exponent`. -/
def reachesPower (numerator denominator : Nat) (exponent : Int) : Bool :=
  decide (denominator * Nat.pow 2 exponent.toNat ≤ numerator * Nat.pow 2 (-exponent).toNat)

/-- The least exponent whose power of two lies above a positive ratio. The binary lengths of
its two parts leave two candidates.
-/
def powerAbove (numerator denominator : Nat) : Int :=
  let candidate : Int := (numerator.log2 : Int) - denominator.log2
  if reachesPower numerator denominator candidate then candidate + 1 else candidate

/-- The exponent of the last significand bit for a positive ratio. -/
def unitExponent (numerator denominator : Nat) : Int :=
  max (powerAbove numerator denominator - 53) (-1074)

/-- The number with the given parts; what lies beyond the format is infinite. -/
def ofParts (negative : Bool) (significand : Nat) (exponent : Int) : Binary64 :=
  if canonical : Canonical significand exponent then
    .finite negative significand exponent canonical
  else
    .infinite negative

/-- The number nearest to `numerator / denominator`. A significand that rounds up past its bits
moves to the next exponent.
-/
def ofRatio (negative : Bool) (numerator denominator : Nat) : Binary64 :=
  if numerator = 0 then
    zero negative
  else
    let exponent := unitExponent numerator denominator
    let significand := roundHalfEven (numerator * Nat.pow 2 (-exponent).toNat)
      (denominator * Nat.pow 2 exponent.toNat)
    if significand = Nat.pow 2 53 then
      ofParts negative (Nat.pow 2 52) (exponent + 1)
    else
      ofParts negative significand exponent

/-- The number nearest to a natural number. -/
def ofNat (n : Nat) : Binary64 := ofRatio false n 1

/-- The number nearest to `digits * 10 ^ exponent`. Exponents that decide the answer on their
own, above every finite number or below half the least one, are answered without the power.
-/
def ofDecimal (negative : Bool) (digits : Nat) (exponent : Int) : Binary64 :=
  if digits = 0 then
    zero negative
  else if 309 ≤ exponent then
    .infinite negative
  else if (digits.log2 : Int) + 1 + 3 * exponent ≤ -1075 then
    zero negative
  else
    ofRatio negative (digits * Nat.pow 10 exponent.toNat) (Nat.pow 10 (-exponent).toNat)

end CompilerReports.Binary64
