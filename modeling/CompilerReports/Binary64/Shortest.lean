import CompilerReports.Binary64.Rounding

/-! The shortest decimal of a positive finite number: of the decimals that read back to it, one
with the fewest digits, and of those the nearest. For each number of digits only the two
neighbours of the value on that decimal grid need a look, since the numbers that read back
form an interval around the value.
-/

namespace CompilerReports

structure Decimal where
  digits : Nat
  exponent : Int
  deriving DecidableEq

namespace Binary64

/-- An exact positive value as a ratio of natural numbers. -/
structure Ratio where
  numerator : Nat
  denominator : Nat

/-- The ratio of value `significand * 2 ^ exponent`. -/
def Ratio.ofParts (significand : Nat) (exponent : Int) : Ratio :=
  ⟨significand * Nat.pow 2 exponent.toNat, Nat.pow 2 (-exponent).toNat⟩

def decimalLength (n : Nat) : Nat := (Nat.toDigits 10 n).length

/-- The least exponent whose power of ten lies above a positive ratio, read off the length of
the whole part, or of the inverse when there is none.
-/
def Ratio.powerOfTenAbove (value : Ratio) : Int :=
  if value.denominator ≤ value.numerator then
    decimalLength (value.numerator / value.denominator)
  else
    1 - (decimalLength ((value.denominator - 1) / value.numerator) : Int)

/-- The value measured in units of `10 ^ exponent`. -/
def Ratio.inUnits (value : Ratio) (exponent : Int) : Ratio :=
  ⟨value.numerator * Nat.pow 10 (-exponent).toNat,
    value.denominator * Nat.pow 10 exponent.toNat⟩

/-- Of the two neighbours of the value on the grid of `10 ^ exponent`, the one to print: a
neighbour must read back to `target`; of two the nearer is taken, of two equally near the even.
-/
def Ratio.neighbour? (value : Ratio) (target : Binary64) (exponent : Int) : Option Decimal :=
  let measured := value.inUnits exponent
  let below := measured.numerator / measured.denominator
  let twice := 2 * (measured.numerator % measured.denominator)
  let belowNearer :=
    decide (twice < measured.denominator)
      || (decide (twice = measured.denominator) && decide (below % 2 = 0))
  let belowReads := decide (ofDecimal false below exponent = target)
  let aboveReads := decide (ofDecimal false (below + 1) exponent = target)
  if belowReads && (belowNearer || !aboveReads) then
    some ⟨below, exponent⟩
  else if aboveReads then
    some ⟨below + 1, exponent⟩
  else
    none

/-- The exact decimal of value `significand * 2 ^ exponent`. -/
def exactDecimal (significand : Nat) (exponent : Int) : Decimal :=
  ⟨significand * Nat.pow 2 exponent.toNat * Nat.pow 5 (-exponent).toNat, min exponent 0⟩

/-- The shortest decimal of the positive number with the given parts. Seventeen digits always
suffice; the exact decimal stands at the end of the search, so it has an answer by itself.
-/
def shortest (significand : Nat) (exponent : Int) : Decimal :=
  let value := Ratio.ofParts significand exponent
  let target := Binary64.ofParts false significand exponent
  let top := value.powerOfTenAbove
  ((List.range 17).findSome? fun (n : Nat) => value.neighbour? target (top - n - 1)).getD
    (exactDecimal significand exponent)

end Binary64

end CompilerReports
