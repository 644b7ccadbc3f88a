import CompilerReports.Binary64.Shortest

/-! The text of a number: its shortest digits, positional where the decimal point falls within
twenty-one places of the first digit or at most five zeros lie between, and with an exponent
elsewhere.
-/

namespace CompilerReports.Binary64

/-- The digits of a decimal without their trailing zeros, and the place of its point: the value
is `0.digits * 10 ^ point`.
-/
def pointed (decimal : Decimal) : List Char × Int :=
  let digits := Nat.toDigits 10 decimal.digits
  let kept := (digits.reverse.dropWhile (· == '0')).reverse
  (kept, decimal.exponent + digits.length)

/-- The greatest point that is written positionally. -/
def lastPositionalPoint : Int := 21

/-- The least point that is written positionally, with five zeros after the point. -/
def firstPositionalPoint : Int := -5

def exponentText (exponent : Int) : List Char :=
  (if exponent < 0 then '-' else '+') :: Nat.toDigits 10 exponent.natAbs

/-- Lays digits out around their point, in one positional form for each side on which the point
can lie, or with an exponent.
-/
def layOut (digits : List Char) (point : Int) : List Char :=
  if digits.length ≤ point ∧ point ≤ lastPositionalPoint then
    digits ++ List.replicate (point.toNat - digits.length) '0'
  else if 0 < point ∧ point ≤ lastPositionalPoint then
    digits.take point.toNat ++ '.' :: digits.drop point.toNat
  else if firstPositionalPoint ≤ point ∧ point ≤ 0 then
    '0' :: '.' :: List.replicate point.natAbs '0' ++ digits
  else
    match digits with
    | [digit] => digit :: 'e' :: exponentText (point - 1)
    | first :: rest => first :: '.' :: rest ++ 'e' :: exponentText (point - 1)
    | [] => []

/-- The text of the positive number with the given parts. -/
def magnitudeText (significand : Nat) (exponent : Int) : List Char :=
  let (digits, point) := pointed (shortest significand exponent)
  layOut digits point

def signText (negative : Bool) : List Char := if negative then ['-'] else []

/-- The text of a number as characters. Both zeros are written without a sign. -/
def chars : Binary64 → List Char
  | .nan => "NaN".toList
  | .infinite negative => signText negative ++ "Infinity".toList
  | .finite negative significand exponent _ =>
      if significand = 0 then
        ['0']
      else
        signText negative ++ magnitudeText significand exponent

def text (x : Binary64) : String := String.ofList x.chars

end CompilerReports.Binary64
