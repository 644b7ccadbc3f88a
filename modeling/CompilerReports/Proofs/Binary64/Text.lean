import CompilerReports.Proofs.Binary64.FewestDigits
import CompilerReports.Proofs.Json.Numbers

/-! The text of a number has the fewest digits that read back to the number, and it tells numbers
apart: equal texts are those of one number, or of the two zeros.
-/

namespace CompilerReports.Binary64

-----------------------------------------------------------------------------------------
-- The digits
-----------------------------------------------------------------------------------------

/-- The value of digits around a point, `0.digits * 10 ^ point`. -/
def pointedValue (digits : List Char) (point : Int) : ℚ :=
  Nat.ofDigitChars 10 digits 0 * 10 ^ (point - digits.length)

section

variable {significand : Nat} {exponent : Int}

/-- (ShortestDigits canonical digits point) requires the digits around the point to read back to the
positive number with the parts, no decimal that reads back to it to have fewer digits, and none of
as many digits to be nearer to it.
-/
structure ShortestDigits (canonical : Canonical significand exponent) (digits : List Char)
    (point : Int) : Prop where
  significant : Json.Significant digits
  reads : IsNearest (pointedValue digits point) (.finite false significand exponent canonical)
  fewest
    : ∀ (others : Nat) (unit : Int),
        IsNearest (others * 10 ^ unit) (.finite false significand exponent canonical)
        → digits.length ≤ decimalLength others
  nearest
    : ∀ (others : Nat) (unit : Int),
        IsNearest (others * 10 ^ unit) (.finite false significand exponent canonical)
        → decimalLength others ≤ digits.length
        → |(significand : ℚ) * 2 ^ exponent - pointedValue digits point|
          ≤ |(significand : ℚ) * 2 ^ exponent - others * 10 ^ unit|

/-- A decimal on a grid of so many digits keeps so many of them at most. At the end of the grid
there is one more, which is a zero.
-/
theorem length_pointed_le {decimal : Decimal} {count : Nat}
    (bound : decimal.digits ≤ 10 ^ (count + 1))
    : (pointed decimal).1.length ≤ count + 1 := by
  have kept : ∀ full : List Char,
      (full.reverse.dropWhile (· == '0')).reverse.length ≤ full.length := by
    intro full
    rw [List.length_reverse]
    exact (List.dropWhile_sublist _).length_le.trans_eq List.length_reverse
  simp only [pointed]
  rcases bound.lt_or_eq with less | last
  · exact (kept _).trans ((decimalLength_le_iff (Nat.succ_pos count)).mpr less)
  · have ten : 10 ≤ 10 ^ (count + 1) := Nat.le_self_pow (Nat.succ_ne_zero count) 10
    have shorter : 10 ^ (count + 1) / 10 = 10 ^ count := Nat.mul_div_cancel _ (by decide)
    have zero : 10 ^ (count + 1) % 10 = 0 := Nat.mul_mod_left ..
    rw [last, Nat.toDigits_of_base_le (by decide) ten, shorter, zero, List.reverse_append]
    refine (kept _).trans ((decimalLength_le_iff (Nat.succ_pos count)).mpr ?_)
    exact Nat.pow_lt_pow_right (by decide) (Nat.lt_succ_self count)

/-- The digits that are written for a positive number are its shortest ones. -/
theorem shortestDigits_pointed (canonical : Canonical significand exponent)
    (positive : significand ≠ 0)
    : ShortestDigits canonical (pointed (shortest significand exponent)).1
        (pointed (shortest significand exponent)).2 := by
  obtain ⟨significant, value⟩ :=
    Json.pointed_spec (shortest_digits_ne_zero canonical positive)
  obtain ⟨count, bound, others⟩ := shortest_spec canonical positive
  have few := length_pointed_le bound
  constructor
  · exact significant
  · rw [pointedValue, value]
    exact ofDecimal_eq_iff.mp (ofDecimal_shortest false canonical positive)
  · exact fun digits unit reads => few.trans (others digits unit reads).1
  · intro digits unit reads fewer
    rw [pointedValue, value]
    exact (others digits unit reads).2 (fewer.trans few)

end

/-- (Prints x text) lists the texts of numbers: a number that is neither zero nor infinite has its
sign and its shortest digits, laid out around their point.
-/
inductive Prints : Binary64 → List Char → Prop where
  | nan : Prints .nan "NaN".toList
  | infinite (negative : Bool)
    : Prints (.infinite negative) (signText negative ++ "Infinity".toList)
  | zero (negative : Bool) : Prints (.zero negative) ['0']
  | finite (negative : Bool) {significand : Nat} {exponent : Int}
    {canonical : Canonical significand exponent} (positive : significand ≠ 0)
    {digits : List Char} {point : Int} (shortest : ShortestDigits canonical digits point)
    : Prints (.finite negative significand exponent canonical)
        (signText negative ++ layOut digits point)

theorem prints_chars (x : Binary64)
    : Prints x x.chars := by
  cases x with
  | nan => exact .nan
  | infinite negative => exact .infinite negative
  | finite negative significand exponent canonical =>
      by_cases none : significand = 0
      · rw [chars, if_pos none]
        subst none
        obtain rfl : exponent = -1074 := canonical.2.2.2.resolve_left (by decide)
        exact .zero negative
      · rw [chars, if_neg none]
        exact .finite negative none (shortestDigits_pointed canonical none)

-----------------------------------------------------------------------------------------
-- Reading texts back
-----------------------------------------------------------------------------------------

/-- (SameNumber x y) compares numbers, so that the two zeros are the same and the NaN is itself. -/
def SameNumber (x y : Binary64) : Prop := x = y ∨ x.isZero = true ∧ y.isZero = true

/-- A number without the sign that a zero may have. -/
def unsignedZero (x : Binary64) : Binary64 := if x.isZero then zero false else x

theorem unsignedZero_eq_iff {x y : Binary64}
    : x.unsignedZero = y.unsignedZero ↔ x.SameNumber y := by
  unfold unsignedZero SameNumber
  constructor
  · intro same
    split at same <;> split at same
    case isTrue.isTrue left right => exact Or.inr ⟨left, right⟩
    case isTrue.isFalse left right => exact absurd (same ▸ rfl) right
    case isFalse.isTrue left right => exact absurd (same ▸ rfl) left
    case isFalse.isFalse => exact Or.inl same
  · rintro (rfl | ⟨left, right⟩)
    · rfl
    · rw [if_pos left, if_pos right]

theorem chars_of_isZero {x : Binary64} (none : x.isZero = true)
    : x.chars = ['0'] := by
  cases x with
  | nan | infinite => cases none
  | finite negative significand exponent canonical => exact if_pos (eq_of_beq none)

theorem chars_unsignedZero (x : Binary64)
    : x.unsignedZero.chars = x.chars := by
  unfold unsignedZero
  split
  case isTrue none => rw [chars_of_isZero none, chars_of_isZero rfl]
  case isFalse => rfl

/-- A finite number without such a sign is one with a text of its own. -/
theorem written_unsignedZero (negative : Bool) {significand : Nat} {exponent : Int}
    (canonical : Canonical significand exponent)
    : Json.Written (unsignedZero (.finite negative significand exponent canonical)) := by
  by_cases none : significand = 0
  · subst none
    exact .zero
  · have some : (finite negative significand exponent canonical).isZero = false :=
      beq_eq_false_iff_ne.mpr none
    rw [unsignedZero, some]
    exact .positive canonical none negative

theorem numberChars_of_written {x : Binary64} (written : Json.Written x)
    : Json.numberChars x = x.chars := by
  cases written <;> rfl

/-- Reads the text of a number. -/
def read? (text : List Char) : Option Binary64 :=
  match Json.readScalar text with
  | .ok (.number x, []) => some x
  | _ =>
      if text = "NaN".toList then some .nan
      else if text = "Infinity".toList then some (.infinite false)
      else if text = "-Infinity".toList then some (.infinite true)
      else none

/-- The text of a number is read as the number, a negative zero as zero. -/
theorem read?_chars (x : Binary64)
    : read? x.chars = some x.unsignedZero := by
  cases x with
  | nan => rfl
  | infinite negative => cases negative <;> rfl
  | finite negative significand exponent canonical =>
      have written := written_unsignedZero negative canonical
      have ends : Json.Ends [] := fun _ first => nomatch first
      have read := Json.readScalar_numberChars written ends
      rw [numberChars_of_written written, chars_unsignedZero, List.append_nil] at read
      simp only [read?, read]

/-- Equal texts are those of one number or of the two zeros. -/
theorem chars_eq_iff {x y : Binary64}
    : x.chars = y.chars ↔ x.SameNumber y := by
  rw [← unsignedZero_eq_iff]
  constructor
  · intro same
    have read := read?_chars x
    rw [same, read?_chars y] at read
    exact (Option.some.inj read).symm
  · intro same
    rw [← chars_unsignedZero x, same, chars_unsignedZero y]

-----------------------------------------------------------------------------------------
-- Characters
-----------------------------------------------------------------------------------------

/-- The text of a number holds letters, digits and the marks of numerals only. -/
theorem isAlphanum_or_mem (x : Binary64) {c : Char} (member : c ∈ x.chars)
    : c.isAlphanum = true ∨ c ∈ Json.numeralMarks := by
  cases x with
  | nan =>
      have letters : (nan.chars.all fun c => c.isAlphanum) = true := by decide
      exact Or.inl (List.all_eq_true.mp letters c member)
  | infinite negative =>
      have letters : ("Infinity".toList.all fun c => c.isAlphanum) = true := by decide
      rcases List.mem_append.mp member with sign | letter
      · cases negative with
        | false => cases sign
        | true => exact Or.inr (List.mem_singleton.mp sign ▸ by decide)
      · exact Or.inl (List.all_eq_true.mp letters c letter)
  | finite negative significand exponent canonical =>
      have written := written_unsignedZero negative canonical
      rw [← chars_unsignedZero, ← numberChars_of_written written] at member
      refine (written.isDigit_or_mem member).imp_left fun digit => ?_
      rw [Char.isAlphanum, digit, Bool.or_true]

/-- So it holds no other mark. -/
theorem notMem_chars (x : Binary64) {mark : Char} (noLetter : mark.isAlphanum = false)
    (noMark : mark ∉ Json.numeralMarks)
    : mark ∉ x.chars := by
  intro member
  rcases x.isAlphanum_or_mem member with letter | marked
  · rw [noLetter] at letter
    cases letter
  · exact noMark marked

end CompilerReports.Binary64
