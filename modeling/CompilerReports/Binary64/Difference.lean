import CompilerReports.Binary64.Rounding

/-! Subtraction of binary64 numbers. The difference of two finite numbers is taken exactly, in the
lesser of their two units, and rounded once.
-/

namespace CompilerReports.Binary64

def one : Binary64 := .finite false (Nat.pow 2 52) (-52) (by decide)

/-- A magnitude under a sign. -/
def signed (negative : Bool) (magnitude : Nat) : Int := if negative then -magnitude else magnitude

/-- The difference of two numbers. Where two finite ones are equal it is the negative zero only if
zero is taken from the negative zero.
-/
def sub : Binary64 → Binary64 → Binary64
  | .nan, _ | _, .nan => .nan
  | .infinite left, .infinite right => if left = right then .nan else .infinite left
  | .infinite left, .finite .. => .infinite left
  | .finite .., .infinite right => .infinite !right
  | .finite left significand exponent _, .finite right taken lower _ =>
      let unit := min exponent lower
      let difference := signed left (significand * Nat.pow 2 (exponent - unit).toNat)
        - signed right (taken * Nat.pow 2 (lower - unit).toNat)
      if difference = 0 then
        zero (left && !right)
      else
        ofRatio (decide (difference < 0)) (difference.natAbs * Nat.pow 2 unit.toNat)
          (Nat.pow 2 (-unit).toNat)

end CompilerReports.Binary64
