import CompilerReports.Json.Printer
import CompilerReports.Proofs.Binary64.Shortest
import CompilerReports.Proofs.Json.Numerals
import CompilerReports.Text.Blank

/-! Numbers that are written are read back. However the digits of the shortest decimal are laid out
around their point, the text is a numeral with the decimal's value; and a decimal is rounded by its
value alone, so that the numeral is read as the number whose shortest decimal it is.
-/

namespace CompilerReports.Json

open Binary64

-----------------------------------------------------------------------------------------
-- Significant digits
-----------------------------------------------------------------------------------------

/-- A run of digits that starts with no zero. -/
structure Significant (digits : List Char) : Prop where
  nonempty : digits ≠ []
  isDigits : IsDigits digits
  noLeadingZero : digits.head? ≠ some '0'

/-- The digits of a positive number start with no zero, by induction on the number of digits. -/
theorem head?_toDigits_ne_zero {n : Nat} (positive : n ≠ 0)
    : (Nat.toDigits 10 n).head? ≠ some '0' := by
  induction n using Nat.strongRecOn with
  | ind n ih =>
      rcases Nat.lt_or_ge n 10 with small | large
      · have digit : ∀ n < 10, n ≠ 0 → n.digitChar ≠ '0' := by decide
        rw [Nat.toDigits_of_lt_base small, List.head?_cons]
        exact fun same => digit n small positive (Option.some.inj same)
      · rw [Nat.toDigits_of_base_le (by decide) large, List.head?_append]
        have higher := ih (n / 10) (by omega) (by omega)
        cases first : (Nat.toDigits 10 (n / 10)).head? with
        | none => exact absurd (List.head?_eq_none_iff.mp first) Nat.toDigits_ne_nil
        | some c =>
            rw [Option.some_or, ← first]
            exact higher

theorem significant_toDigits {n : Nat} (positive : n ≠ 0)
    : Significant (Nat.toDigits 10 n) where
  nonempty := Nat.toDigits_ne_nil
  isDigits := isDigits_toDigits n
  noLeadingZero := head?_toDigits_ne_zero positive

/-- Significant digits remain so when zeros behind them are taken off: not all of them are zeros, as
the first is none.
-/
theorem Significant.of_append_zeros {digits : List Char} {zeros : Nat}
    (significant : Significant (digits ++ List.replicate zeros '0'))
    : Significant digits := by
  cases digits with
  | nil =>
      cases zeros with
      | zero => exact absurd rfl significant.nonempty
      | succ n => exact absurd rfl significant.noLeadingZero
  | cons first rest =>
      exact ⟨List.cons_ne_nil _ _, fun c member => significant.isDigits c
        (List.mem_append_left _ member), significant.noLeadingZero⟩

/-- The digits of a decimal and the place of its point have the value of the decimal. -/
theorem pointed_spec {decimal : Decimal} (positive : decimal.digits ≠ 0)
    : Significant (pointed decimal).1
      ∧ (Nat.ofDigitChars 10 (pointed decimal).1 0 : ℚ)
          * 10 ^ ((pointed decimal).2 - (pointed decimal).1.length)
        = decimal.digits * 10 ^ decimal.exponent := by
  have significant := significant_toDigits positive
  have value : Nat.ofDigitChars 10 (Nat.toDigits 10 decimal.digits) 0 = decimal.digits :=
    Nat.ofDigitChars_ten_toDigits
  have split := Text.dropEndWhile_append_takeWhile (· == '0') (Nat.toDigits 10 decimal.digits)
  simp only [pointed]
  generalize Nat.toDigits 10 decimal.digits = full at significant value split ⊢
  have kept : (full.reverse.dropWhile (· == '0')).reverse = Text.dropEndWhile (· == '0') full := rfl
  rw [kept]
  generalize Text.dropEndWhile (· == '0') full = digits at split ⊢
  obtain ⟨zeros, run⟩ : ∃ zeros,
      (full.reverse.takeWhile (· == '0')).reverse = List.replicate zeros '0' := by
    refine ⟨_, List.eq_replicate_iff.mpr ⟨rfl, fun c member => ?_⟩⟩
    have zero := List.all_eq_true.mp List.all_takeWhile c (List.mem_reverse.mp member)
    exact eq_of_beq zero
  rw [run] at split
  subst split
  refine ⟨significant.of_append_zeros, ?_⟩
  rw [Nat.ofDigitChars_append, Nat.ofDigitChars_replicate_zero] at value
  have place : decimal.exponent + ((digits ++ List.replicate zeros '0').length : Int) - digits.length
      = decimal.exponent + zeros := by
    rw [List.length_append, List.length_replicate]
    push_cast
    ring
  rw [place, ← value, zpow_add₀ (by norm_num), zpow_natCast]
  push_cast
  ring

-----------------------------------------------------------------------------------------
-- Layouts
-----------------------------------------------------------------------------------------

variable {digits : List Char}

/-- Digits with zeros up to the point behind them are a numeral without a fraction. -/
theorem whole_layOut (significant : Significant digits) (zeros : Nat)
    : let numeral : Numeral := { whole := digits ++ List.replicate zeros '0' }
      numeral.WellFormed
      ∧ numeral.chars = digits ++ List.replicate zeros '0'
      ∧ (numeral.digits : ℚ) * 10 ^ numeral.exponent
        = Nat.ofDigitChars 10 digits 0 * 10 ^ (zeros : Int) := by
  obtain ⟨nonempty, isDigits, noLeadingZero⟩ := significant
  refine ⟨⟨?_, ?_, List.forall_mem_nil _, ?_⟩, List.append_nil _, ?_⟩
  · exact List.append_ne_nil_of_left_ne_nil nonempty _
  · intro c member
    rcases List.mem_append.mp member with member | member
    · exact isDigits c member
    · rw [List.eq_of_mem_replicate member]
      rfl
  · rw [List.head?_append_of_ne_nil _ nonempty]
    exact fun zero => absurd zero noLeadingZero
  · simp only [Numeral.digits, Numeral.exponent, List.append_nil, Nat.ofDigitChars_append,
      Nat.ofDigitChars_replicate_zero, Option.getD_none, List.length_nil]
    push_cast
    rw [zpow_natCast]
    ring

/-- Digits with the point among them are a numeral with the digits behind it as its fraction. -/
theorem split_layOut (significant : Significant digits) {place : Nat} (positive : 0 < place)
    (inside : place < digits.length)
    : let numeral : Numeral := { whole := digits.take place, fraction := digits.drop place }
      numeral.WellFormed
      ∧ numeral.chars = digits.take place ++ '.' :: digits.drop place
      ∧ numeral.digits = Nat.ofDigitChars 10 digits 0
      ∧ numeral.exponent = place - digits.length := by
  obtain ⟨nonempty, isDigits, noLeadingZero⟩ := significant
  have some : digits.drop place ≠ [] := by
    rw [ne_eq, List.drop_eq_nil_iff]
    omega
  refine ⟨⟨?_, ?_, ?_, ?_⟩, ?_, ?_, ?_⟩
  · rw [ne_eq, List.take_eq_nil_iff]
    exact not_or.mpr ⟨Nat.ne_of_gt positive, nonempty⟩
  · exact fun c member => isDigits c (List.mem_of_mem_take member)
  · exact fun c member => isDigits c (List.mem_of_mem_drop member)
  · rw [List.head?_take, if_neg (Nat.ne_of_gt positive)]
    exact fun zero => absurd zero noLeadingZero
  · simp only [Numeral.chars, Numeral.fractionChars, Numeral.powerChars, if_neg some,
      List.append_nil]
  · simp only [Numeral.digits, List.take_append_drop]
  · simp only [Numeral.exponent, Option.getD_none, List.length_drop]
    omega

/-- Digits behind the point and zeros are the fraction of a numeral that is less than one. -/
theorem fraction_layOut (significant : Significant digits) (zeros : Nat)
    : let numeral : Numeral := { whole := ['0'], fraction := List.replicate zeros '0' ++ digits }
      numeral.WellFormed
      ∧ numeral.chars = '0' :: '.' :: List.replicate zeros '0' ++ digits
      ∧ numeral.digits = Nat.ofDigitChars 10 digits 0
      ∧ numeral.exponent = -zeros - digits.length := by
  obtain ⟨nonempty, isDigits, noLeadingZero⟩ := significant
  have some : List.replicate zeros '0' ++ digits ≠ [] :=
    List.append_ne_nil_of_right_ne_nil _ nonempty
  refine ⟨⟨List.cons_ne_nil _ _, ?_, ?_, fun _ => rfl⟩, ?_, ?_, ?_⟩
  · intro c member
    rw [List.mem_singleton.mp member]
    rfl
  · intro c member
    rcases List.mem_append.mp member with member | member
    · rw [List.eq_of_mem_replicate member]
      rfl
    · exact isDigits c member
  · simp only [Numeral.chars, Numeral.fractionChars, Numeral.powerChars, if_neg some,
      List.append_nil]
    rfl
  · simp only [Numeral.digits, Nat.ofDigitChars_append, Nat.ofDigitChars_cons,
      Nat.ofDigitChars_nil, Nat.ofDigitChars_replicate_zero]
    rfl
  · simp only [Numeral.exponent, Option.getD_none, List.length_append, List.length_replicate]
    omega

/-- Digits with the point behind the first one, if there is another one, and a power of ten. -/
theorem power_layOut {first : Char} {rest : List Char} (significant : Significant (first :: rest))
    (power : Int)
    : let numeral : Numeral := { whole := [first], fraction := rest, power := some power }
      numeral.WellFormed
      ∧ numeral.chars
        = first :: (if rest = [] then [] else '.' :: rest) ++ 'e' :: exponentText power
      ∧ numeral.digits = Nat.ofDigitChars 10 (first :: rest) 0
      ∧ numeral.exponent = power - rest.length := by
  obtain ⟨_, isDigits, _⟩ := significant
  refine ⟨⟨List.cons_ne_nil _ _, ?_, ?_, fun _ => rfl⟩, rfl, rfl, rfl⟩
  · intro c member
    exact isDigits c (List.mem_singleton.mp member ▸ List.mem_cons_self)
  · exact fun c member => isDigits c (List.mem_cons_of_mem _ member)

/-- Digits laid out around a point are a numeral of the same value, in the positional forms and in
the forms with an exponent.
-/
theorem exists_numeral_layOut (significant : Significant digits) (point : Int)
    : ∃ numeral : Numeral,
        numeral.WellFormed
        ∧ numeral.chars = layOut digits point
        ∧ (numeral.digits : ℚ) * 10 ^ numeral.exponent
          = Nat.ofDigitChars 10 digits 0 * 10 ^ (point - digits.length) := by
  unfold layOut
  split
  case isTrue before =>
    obtain ⟨zeros, place⟩ := Int.le.dest before.1
    have count : point.toNat - digits.length = zeros := by omega
    have left : point - digits.length = zeros := by omega
    rw [count, left]
    exact ⟨_, whole_layOut significant zeros⟩
  case isFalse notBefore =>
  split
  case isTrue inside =>
    obtain ⟨place, rfl⟩ := Int.eq_ofNat_of_zero_le inside.1.le
    have positive : 0 < place := by omega
    obtain ⟨wellFormed, written, value, exponent⟩ :=
      split_layOut significant positive (by omega)
    exact ⟨_, wellFormed, written, by rw [value, exponent]⟩
  case isFalse =>
  split
  case isTrue behind =>
    obtain ⟨zeros, rfl⟩ : ∃ zeros : Nat, point = -zeros := ⟨point.natAbs, by omega⟩
    obtain ⟨wellFormed, written, value, exponent⟩ := fraction_layOut significant zeros
    refine ⟨_, wellFormed, ?_, by rw [value, exponent]⟩
    rw [written, Int.natAbs_neg, Int.natAbs_natCast]
  case isFalse =>
  split
  case h_1 digit =>
    obtain ⟨wellFormed, written, value, exponent⟩ := power_layOut significant (point - 1)
    refine ⟨_, wellFormed, written, ?_⟩
    rw [value, exponent]
    simp
  case h_2 first rest several =>
    obtain ⟨wellFormed, written, value, exponent⟩ := power_layOut significant (point - 1)
    refine ⟨_, wellFormed, ?_, ?_⟩
    · rw [written, if_neg several]
    · have place : point - 1 - (rest.length : Int) = point - (first :: rest).length := by
        rw [List.length_cons]
        omega
      rw [value, exponent, place]
  case h_3 => exact absurd rfl significant.nonempty

-----------------------------------------------------------------------------------------
-- Numbers
-----------------------------------------------------------------------------------------

/-- A numeral starts with a digit. -/
theorem Numeral.WellFormed.exists_digit {numeral : Numeral} (wellFormed : numeral.WellFormed)
    : ∃ c more, numeral.chars = c :: more ∧ c.isDigit = true := by
  obtain ⟨c, more, whole⟩ := List.exists_cons_of_ne_nil wellFormed.nonempty
  refine ⟨c, more ++ (numeral.fractionChars ++ numeral.powerChars), ?_, ?_⟩
  · rw [Numeral.chars, whole]
    rfl
  · exact wellFormed.wholeDigits c (whole ▸ List.mem_cons_self)

/-- The characters that stand among the digits of a number. -/
def numeralMarks : List Char := ['.', 'e', '+', '-']

/-- A numeral is made of digits and marks. -/
theorem Numeral.WellFormed.isDigit_or_mem {numeral : Numeral} (wellFormed : numeral.WellFormed)
    {c : Char} (member : c ∈ numeral.chars)
    : c.isDigit = true ∨ c ∈ numeralMarks := by
  have fraction : c ∈ numeral.fractionChars → c.isDigit = true ∨ c ∈ numeralMarks := by
    rw [Numeral.fractionChars]
    split
    · exact fun none => absurd none List.not_mem_nil
    · intro member
      rcases List.mem_cons.mp member with rfl | member
      · exact Or.inr (by decide)
      · exact Or.inl (wellFormed.fractionDigits c member)
  have power : c ∈ numeral.powerChars → c.isDigit = true ∨ c ∈ numeralMarks := by
    rw [Numeral.powerChars]
    cases numeral.power with
    | none => exact fun none => absurd none List.not_mem_nil
    | some power =>
        intro member
        rcases List.mem_cons.mp member with rfl | member
        · exact Or.inr (by decide)
        rcases List.mem_cons.mp member with rfl | member
        · exact Or.inr (by split <;> decide)
        · exact Or.inl (isDigits_toDigits _ c member)
  rcases List.mem_append.mp member with member | member
  · exact Or.inl (wellFormed.wholeDigits c member)
  · exact (List.mem_append.mp member).elim fraction power

/-- The text of a positive number is a numeral, which is read as that number under either sign. -/
theorem exists_numeral_magnitudeText {significand : Nat} {exponent : Int}
    (canonical : Canonical significand exponent) (positive : significand ≠ 0)
    : ∃ numeral : Numeral,
        numeral.WellFormed
        ∧ numeral.chars = magnitudeText significand exponent
        ∧ ∀ negative,
            ofDecimal negative numeral.digits numeral.exponent
            = .finite negative significand exponent canonical := by
  obtain ⟨significant, pointedValue⟩ :=
    pointed_spec (shortest_digits_ne_zero canonical positive)
  obtain ⟨numeral, wellFormed, written, value⟩ := exists_numeral_layOut significant
    (pointed (shortest significand exponent)).2
  refine ⟨numeral, wellFormed, written, fun negative => ?_⟩
  rw [ofDecimal_congr negative (value.trans pointedValue),
    ofDecimal_shortest negative canonical positive]

/-- A text that starts with a digit is read as a number. -/
theorem readScalar_of_digit {c : Char} {rest : List Char} (digit : c.isDigit = true)
    : readScalar (c :: rest) = magnitude false (c :: rest) := by
  unfold readScalar
  split
  case h_5 same =>
    obtain ⟨rfl, rfl⟩ := List.cons.inj same
    rw [if_pos digit]
  case h_6 same => cases same
  all_goals
    rename_i same
    obtain ⟨rfl, rfl⟩ := List.cons.inj same
    cases digit

/-- The numbers with a text of their own: the finite ones except the negative zero, which is written
as zero is.
-/
inductive Written : Binary64 → Prop where
  | zero : Written (.zero false)
  | positive {significand : Nat} {exponent : Int} (canonical : Canonical significand exponent)
    (positive : significand ≠ 0) (negative : Bool)
    : Written (.finite negative significand exponent canonical)

/-- The text of such a number is a sign and a numeral, which is rounded to the number. -/
theorem Written.exists_numeral {x : Binary64} (written : Written x)
    : ∃ (negative : Bool) (numeral : Numeral),
        numeral.WellFormed
        ∧ numberChars x = signText negative ++ numeral.chars
        ∧ ofDecimal negative numeral.digits numeral.exponent = x := by
  cases written with
  | zero =>
      have wellFormed : ({ whole := ['0'] } : Numeral).WellFormed :=
        ⟨List.cons_ne_nil _ _, by simp [IsDigits], List.forall_mem_nil _, fun _ => rfl⟩
      exact ⟨false, _, wellFormed, rfl, rfl⟩
  | positive canonical positive negative =>
      obtain ⟨numeral, wellFormed, same, value⟩ := exists_numeral_magnitudeText canonical positive
      refine ⟨negative, numeral, wellFormed, ?_, value negative⟩
      rw [same, numberChars, Binary64.chars, if_neg positive]

theorem Written.starts {x : Binary64} (written : Written x)
    : ∃ c more, numberChars x = c :: more ∧ (c.isDigit = true ∨ c = '-') := by
  obtain ⟨negative, numeral, wellFormed, shape, _⟩ := written.exists_numeral
  cases negative with
  | false =>
      obtain ⟨c, more, first, digit⟩ := wellFormed.exists_digit
      exact ⟨c, more, shape.trans first, Or.inl digit⟩
  | true => exact ⟨'-', numeral.chars, shape, Or.inr rfl⟩

theorem Written.isDigit_or_mem {x : Binary64} (written : Written x) {c : Char}
    (member : c ∈ numberChars x)
    : c.isDigit = true ∨ c ∈ numeralMarks := by
  obtain ⟨negative, numeral, wellFormed, shape, _⟩ := written.exists_numeral
  rw [shape] at member
  cases negative with
  | false => exact wellFormed.isDigit_or_mem member
  | true =>
      rcases List.mem_cons.mp member with rfl | member
      · exact Or.inr (by decide)
      · exact wellFormed.isDigit_or_mem member

/-- The text of a number is read as the number, by its sign. -/
theorem readScalar_numberChars {x : Binary64} (written : Written x) {rest : List Char}
    (ends : Ends rest)
    : readScalar (numberChars x ++ rest) = .ok (.number x, rest) := by
  obtain ⟨negative, numeral, wellFormed, shape, value⟩ := written.exists_numeral
  have read := magnitude_chars negative wellFormed ends
  rw [value] at read
  rw [shape]
  cases negative with
  | false =>
      obtain ⟨c, more, first, digit⟩ := wellFormed.exists_digit
      rw [first] at read ⊢
      exact (readScalar_of_digit digit).trans read
  | true => exact read

end CompilerReports.Json
