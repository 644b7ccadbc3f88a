import CompilerReports.Binary64.Text
import CompilerReports.Json.Reader

/-! Reading numerals. A numeral is a run of digits that has no zero too many in front, with a
fraction and a power of ten where it has them. Whatever follows a numeral and cannot go on with it
is left unread.
-/

namespace CompilerReports.Json

/-- (IsDigits text) requires every character to be a decimal digit. -/
def IsDigits (text : List Char) : Prop := ∀ c ∈ text, c.isDigit = true

/-- (NoDigit text) requires the text not to start with a digit. -/
def NoDigit (text : List Char) : Prop := ∀ c ∈ text.head?, c.isDigit = false

/-- (Ends text) requires the text not to go on with a number in front of it: by a digit, a point
or an exponent.
-/
def Ends (text : List Char) : Prop :=
  ∀ c ∈ text.head?, c.isDigit = false ∧ c ≠ '.' ∧ c ≠ 'e' ∧ c ≠ 'E'

theorem Ends.noDigit {text : List Char} (ends : Ends text)
    : NoDigit text :=
  fun c first => (ends c first).1

theorem isDigits_toDigits (n : Nat)
    : IsDigits (Nat.toDigits 10 n) :=
  fun _ member => Nat.isDigit_of_mem_toDigits (by decide) (by decide) member

/-- A run of digits ends where no digit follows. -/
theorem digitRun_append {digits rest : List Char} (isDigits : IsDigits digits)
    (stops : NoDigit rest)
    : digitRun (digits ++ rest) = (digits, rest) := by
  rw [digitRun, List.takeWhile_append_of_pos isDigits, List.dropWhile_append_of_pos isDigits]
  cases rest with
  | nil => rw [List.takeWhile_nil, List.append_nil, List.dropWhile_nil]
  | cons c more =>
      have noDigit : ¬ c.isDigit = true := Bool.eq_false_iff.mp (stops c rfl)
      rw [List.takeWhile_cons_of_neg noDigit, List.dropWhile_cons_of_neg noDigit, List.append_nil]

-----------------------------------------------------------------------------------------
-- The parts of a numeral
-----------------------------------------------------------------------------------------

/-- A written number: the digits in front of the point and behind it, and the power of ten. -/
structure Numeral where
  whole : List Char
  fraction : List Char := []
  power : Option Int := none

namespace Numeral

def fractionChars (numeral : Numeral) : List Char :=
  if numeral.fraction = [] then [] else '.' :: numeral.fraction

def powerChars (numeral : Numeral) : List Char :=
  match numeral.power with
  | none => []
  | some power => 'e' :: Binary64.exponentText power

def chars (numeral : Numeral) : List Char :=
  numeral.whole ++ (numeral.fractionChars ++ numeral.powerChars)

/-- All digits of a numeral as one number. -/
def digits (numeral : Numeral) : Nat :=
  Nat.ofDigitChars 10 (numeral.whole ++ numeral.fraction) 0

/-- The power of ten that the digits are taken to. -/
def exponent (numeral : Numeral) : Int := numeral.power.getD 0 - numeral.fraction.length

/-- There are digits in front of the point, and a zero in front of them only as the one digit. -/
structure WellFormed (numeral : Numeral) : Prop where
  nonempty : numeral.whole ≠ []
  wholeDigits : IsDigits numeral.whole
  fractionDigits : IsDigits numeral.fraction
  noLeadingZero : numeral.whole.head? = some '0' → numeral.whole.length = 1

end Numeral

variable {numeral : Numeral} {rest : List Char}

theorem whole_append (wellFormed : numeral.WellFormed) (stops : NoDigit rest)
    : whole (numeral.whole ++ rest) = .ok (numeral.whole, rest) := by
  have given : numeral.whole.isEmpty = false :=
    List.isEmpty_eq_false_iff.mpr wellFormed.nonempty
  have unpadded : (numeral.whole.head? == some '0' && numeral.whole.length != 1) = false := by
    simpa using wellFormed.noLeadingZero
  simp only [whole, digitRun_append wellFormed.wholeDigits stops, given, unpadded,
    Bool.false_eq_true, ↓reduceIte]

/-- A fraction is read where there is one, and nothing where there is none and no point follows. -/
theorem fraction_append (wellFormed : numeral.WellFormed) (stops : NoDigit rest)
    (noPoint : rest.head? ≠ some '.')
    : fraction (numeral.fractionChars ++ rest) = .ok (numeral.fraction, rest) := by
  rw [Numeral.fractionChars]
  by_cases absent : numeral.fraction = []
  · rw [if_pos absent, absent, List.nil_append, fraction.eq_def]
    split
    · exact absurd rfl noPoint
    · rfl
  · rw [if_neg absent, List.cons_append]
    have given : numeral.fraction.isEmpty = false := List.isEmpty_eq_false_iff.mpr absent
    simp only [fraction, digitRun_append wellFormed.fractionDigits stops, given,
      Bool.false_eq_true, ↓reduceIte]

/-- The sign in front of an exponent is read off it. -/
theorem exponentSign_exponentText (power : Int) (rest : List Char)
    : exponentSign (Binary64.exponentText power ++ rest)
      = (decide (power < 0), Nat.toDigits 10 power.natAbs ++ rest) := by
  by_cases negative : power < 0
  · simp only [Binary64.exponentText, negative, ↓reduceIte, decide_true]
    rfl
  · simp only [Binary64.exponentText, negative, ↓reduceIte, decide_false]
    rfl

/-- An exponent is read where there is one, and zero where there is none and no sign of one follows.
-/
theorem exponent_append (ends : Ends rest)
    : exponent (numeral.powerChars ++ rest) = .ok (numeral.power.getD 0, rest) := by
  rw [Numeral.powerChars]
  cases numeral.power with
  | none =>
      cases rest with
      | nil => rfl
      | cons c more =>
          obtain ⟨_, _, noSmall, noLarge⟩ := ends c rfl
          have noMark : (c == 'e' || c == 'E') = false := by simp [noSmall, noLarge]
          simp only [List.nil_append, exponent, noMark, Bool.false_eq_true, ↓reduceIte]
          rfl
  | some power =>
      have given : (Nat.toDigits 10 power.natAbs).isEmpty = false :=
        List.isEmpty_eq_false_iff.mpr Nat.toDigits_ne_nil
      have mark : ('e' == 'e' || 'e' == 'E') = true := rfl
      have signed : (if decide (power < 0) = true then -(power.natAbs : Int) else power.natAbs)
          = power := by
        simp only [decide_eq_true_eq]
        split <;> omega
      simp only [List.cons_append, exponent, mark, ↓reduceIte, exponentSign_exponentText,
        digitRun_append (isDigits_toDigits _) ends.noDigit, given, Bool.false_eq_true,
        Nat.ofDigitChars_ten_toDigits, signed, Option.getD_some]

/-- A numeral is read as the number nearest to its decimal, and what follows it is left. -/
theorem magnitude_chars (negative : Bool) (wellFormed : numeral.WellFormed) (ends : Ends rest)
    : magnitude negative (numeral.chars ++ rest)
      = .ok (.number (.ofDecimal negative numeral.digits numeral.exponent), rest) := by
  have behindFraction : ∀ c ∈ (numeral.powerChars ++ rest).head?, c.isDigit = false ∧ c ≠ '.' := by
    rw [Numeral.powerChars]
    cases numeral.power with
    | none =>
        intro c first
        exact ⟨(ends c first).1, (ends c first).2.1⟩
    | some power =>
        rintro c ⟨⟩
        exact ⟨rfl, by decide⟩
  have behindWhole : NoDigit (numeral.fractionChars ++ (numeral.powerChars ++ rest)) := by
    rw [Numeral.fractionChars]
    split
    · exact fun c first => (behindFraction c first).1
    · rintro c ⟨⟩
      rfl
  have readWhole := whole_append wellFormed behindWhole
  have readFraction := fraction_append wellFormed (fun c first => (behindFraction c first).1)
    (fun point => (behindFraction '.' point).2 rfl)
  rw [Numeral.chars, List.append_assoc, List.append_assoc, magnitude, readWhole]
  simp only [bind, Except.bind, readFraction, exponent_append ends]
  rfl

end CompilerReports.Json
