/-! Binary64 numbers as exact data: a sign, a 53 bit significand and a binary exponent, in the
one form that the format gives each number, beside the infinities and the one NaN.
-/

namespace CompilerReports

/-- The significand and the exponent are in the format's own form: the significand fills its 53
bits, or the exponent is the least one.
-/
def Binary64.Canonical (significand : Nat) (exponent : Int) : Prop :=
  significand < Nat.pow 2 53 ∧ -1074 ≤ exponent ∧ exponent ≤ 971
    ∧ (Nat.pow 2 52 ≤ significand ∨ exponent = -1074)

instance (significand : Nat) (exponent : Int)
    : Decidable (Binary64.Canonical significand exponent) :=
  inferInstanceAs (Decidable (_ ∧ _ ∧ _ ∧ _))

/-- A binary64 number. A finite one has the value `significand * 2 ^ exponent` under its sign. -/
inductive Binary64 where
  | nan
  | infinite (negative : Bool)
  | finite (negative : Bool) (significand : Nat) (exponent : Int)
      (canonical : Binary64.Canonical significand exponent)
  deriving DecidableEq

namespace Binary64

def zero (negative : Bool) : Binary64 := .finite negative 0 (-1074) (by decide)

/-- The negative zero, which prints as zero does. -/
def negativeZero : Binary64 := zero true

def isZero : Binary64 → Bool
  | .finite _ significand _ _ => significand == 0
  | _ => false

/-- The absolute value of a finite number, where it is whole. -/
def wholeMagnitude? : Binary64 → Option Nat
  | .finite _ significand exponent _ =>
      let divisor := Nat.pow 2 (-exponent).toNat
      if significand % divisor = 0 then
        some (significand / divisor * Nat.pow 2 exponent.toNat)
      else
        none
  | _ => none

/-- The value, where it is a natural number; both zeros have the value zero. -/
def toNat? (x : Binary64) : Option Nat :=
  match x with
  | .finite negative significand _ _ =>
      if negative && significand != 0 then none else x.wholeMagnitude?
  | _ => none

/-- The greatest whole number below which every whole number has a binary64 form of its own. -/
def greatestExactWhole : Nat := Nat.pow 2 53 - 1

/-- (isExactWhole x) holds of the whole numbers up to the greatest exact one in absolute value,
the negative zero excepted.
-/
def isExactWhole (x : Binary64) : Bool :=
  match x.wholeMagnitude? with
  | some magnitude => decide (magnitude ≤ greatestExactWhole) && x != negativeZero
  | none => false

end Binary64

end CompilerReports
