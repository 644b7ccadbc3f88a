import Mathlib.Data.List.Basic
import CompilerReports.Text.Percent

/-! What percent-encoded text stands for. A text is decoded to the one path whose UTF-8 form its
octets are, and a character of ASCII is in that form where its octet is, and nowhere else.
-/

namespace CompilerReports.Text

-----------------------------------------------------------------------------------------
-- Hexadecimal digits
-----------------------------------------------------------------------------------------

namespace Hex

/-- (Writes c n) holds of the digit of a number below sixteen, in either case. -/
def Writes (c : Char) (n : Nat) : Prop := n < 16 ∧ (c = digit n ∨ c = (digit n).toUpper)

instance (c : Char) (n : Nat) : Decidable (Writes c n) :=
  inferInstanceAs (Decidable (_ ∧ _))

/-- A digit in either case is read as the number it writes, by the sixteen cases. -/
theorem Writes.value? {c : Char} {n : Nat} (writes : Writes c n)
    : value? c = some n := by
  obtain ⟨small, rfl | rfl⟩ := writes
  · exact value?_digit small
  · revert n
    decide

/-- Digits are letters and numerals, by the sixteen cases. -/
theorem Writes.isAlphanum {c : Char} {n : Nat} (writes : Writes c n)
    : c.isAlphanum = true := by
  obtain ⟨small, rfl | rfl⟩ := writes
  · revert n
    decide
  · revert n
    decide

/-- What is read as a number is a digit of it, by the three ranges of digits. -/
theorem writes_of_value? {c : Char} {n : Nat} (read : value? c = some n)
    : Writes c n := by
  unfold value? at read
  split at read
  case isTrue range =>
    obtain rfl := Option.some.inj read
    obtain ⟨above, below⟩ : 48 ≤ c.toNat ∧ c.toNat ≤ 57 := range
    have place : '0'.toNat + (c.toNat - '0'.toNat) = c.toNat := Nat.add_sub_cancel' above
    have small : c.toNat - '0'.toNat < 10 := by
      have zero : '0'.toNat = 48 := rfl
      omega
    refine ⟨by omega, Or.inl ?_⟩
    rw [digit, if_pos small, place, Char.ofNat_toNat]
  case isFalse =>
    split at read
    case isTrue range =>
      obtain rfl := Option.some.inj read
      obtain ⟨above, below⟩ : 97 ≤ c.toNat ∧ c.toNat ≤ 102 := range
      have place : 'a'.toNat + (c.toNat - 'a'.toNat + 10 - 10) = c.toNat :=
        Nat.add_sub_cancel' above
      have large : ¬ c.toNat - 'a'.toNat + 10 < 10 := by omega
      refine ⟨?_, Or.inl ?_⟩
      · have start : 'a'.toNat = 97 := rfl
        omega
      · rw [digit, if_neg large, place, Char.ofNat_toNat]
    case isFalse =>
      split at read
      case isFalse => exact absurd read (Option.some_ne_none n).symm
      case isTrue range =>
        obtain rfl := Option.some.inj read
        obtain ⟨above, below⟩ : 65 ≤ c.toNat ∧ c.toNat ≤ 70 := range
        have place : 65 + (c.toNat - 'A'.toNat) = c.toNat := Nat.add_sub_cancel' above
        have small : c.toNat - 'A'.toNat < 6 := by
          have start : 'A'.toNat = 65 := rfl
          omega
        have raised : ∀ k < 6, (digit (k + 10)).toUpper = Char.ofNat (65 + k) := by decide
        refine ⟨by omega, Or.inr ?_⟩
        rw [raised _ small, place, Char.ofNat_toNat]

end Hex

-----------------------------------------------------------------------------------------
-- UTF-8
-----------------------------------------------------------------------------------------

/-- The octets of the UTF-8 form of a text. -/
def utf8 (text : List Char) : List UInt8 := text.flatMap String.utf8EncodeChar

theorem utf8_cons (c : Char) (rest : List Char)
    : utf8 (c :: rest) = String.utf8EncodeChar c ++ utf8 rest :=
  List.flatMap_cons

/-- A character of ASCII is one octet. -/
theorem utf8EncodeChar_of_ascii {c : Char} (ascii : c.toNat < 0x80)
    : String.utf8EncodeChar c = [UInt8.ofNat c.toNat] := by
  have low : c.val.toNat ≤ 127 := Nat.le_of_lt_succ ascii
  simp only [String.utf8EncodeChar, low, ↓reduceIte]
  rfl

/-- The octet of a character of ASCII is part of no other character: all octets of the others are
at or above `0x80`.
-/
theorem mem_utf8EncodeChar_iff_of_ascii {mark c : Char} (ascii : mark.toNat < 0x80)
    : UInt8.ofNat mark.toNat ∈ String.utf8EncodeChar c ↔ c = mark := by
  constructor
  case mpr =>
    rintro rfl
    rw [utf8EncodeChar_of_ascii ascii]
    exact List.mem_singleton_self _
  case mp =>
    intro member
    by_cases low : c.toNat < 0x80
    case pos =>
      rw [utf8EncodeChar_of_ascii low, List.mem_singleton, ← UInt8.toNat_inj] at member
      simp only [UInt8.toNat_ofNat', Nat.reducePow] at member
      exact Char.toNat_inj.mp (by omega)
    case neg =>
      have high : ¬ c.val.toNat ≤ 127 := fun small => low (Nat.lt_succ_of_le small)
      simp only [String.utf8EncodeChar, high, ↓reduceIte] at member
      -- Longer forms are made of lead and continuation octets, whose highest bit is set.
      split at member <;> try split at member
      all_goals
        simp only [List.mem_cons, List.not_mem_nil, or_false, ← UInt8.toNat_inj,
          UInt8.toNat_ofNat', Nat.reducePow] at member
        omega

theorem utf8_injective {left right : List Char} (same : utf8 left = utf8 right)
    : left = right := by
  have bytes : (String.ofList left).toByteArray = (String.ofList right).toByteArray := by
    rw [String.toByteArray_ofList, String.toByteArray_ofList]
    exact congrArg List.toByteArray same
  exact String.ofList_injective (String.toByteArray_inj.mp bytes)

/-- The octets of the UTF-8 form of a text are read as that text. -/
theorem fromUTF8?_eq_some_iff {octets : List UInt8} {text : String}
    : String.fromUTF8? octets.toByteArray = some text ↔ octets = utf8 text.toList := by
  have form : (utf8 text.toList).toByteArray = text.toByteArray := String.utf8Encode_toList
  rw [← List.toByteArray_inj, form, String.fromUTF8?]
  split
  case isTrue valid =>
    rw [Option.some.injEq, ← String.toByteArray_inj]
    rfl
  case isFalse malformed =>
    refine iff_of_false (by simp) fun same => malformed ?_
    rw [same]
    exact text.isValidUTF8

-----------------------------------------------------------------------------------------
-- Percent-encoded text
-----------------------------------------------------------------------------------------

namespace Percent

/-- A text is decoded to the path whose UTF-8 form its octets are. -/
theorem decode?_eq_some_iff {text : List Char} {path : String}
    : decode? text = some path ↔ octets? text = some (utf8 path.toList) := by
  cases read : octets? text with
  | none => simp [decode?, read]
  | some octets => simp [decode?, read, fromUTF8?_eq_some_iff]

/-- An escape is an octet before the octets of what follows it. -/
theorem octets?_escape (high low : Char) (rest : List Char)
    : octets? ('%' :: high :: low :: rest)
      = (octet? high low).bind fun octet => (octets? rest).map (octet :: ·) := by
  rw [octets?, if_pos rfl]
  cases octet? high low <;> cases octets? rest <;> rfl

/-- A character that starts no escape is its own octets before those of what follows it. -/
theorem octets?_cons {c : Char} (noEscape : c ≠ '%') (rest : List Char)
    : octets? (c :: rest) = (octets? rest).map (String.utf8EncodeChar c ++ ·) := by
  rcases rest with _ | ⟨_, _ | _⟩ <;> simp only [octets?, noEscape, ↓reduceIte]

/-- A text that has octets starts with an escape or with another character. -/
theorem octets?_cons_cases {c : Char} {rest : List Char} {octets : List UInt8}
    (read : octets? (c :: rest) = some octets)
    : (∃ high low more octet later,
        c = '%'
        ∧ rest = high :: low :: more
        ∧ octet? high low = some octet
        ∧ octets? more = some later
        ∧ octets = octet :: later)
      ∨ ∃ later,
          c ≠ '%'
          ∧ octets? rest = some later
          ∧ octets = String.utf8EncodeChar c ++ later := by
  by_cases percent : c = '%'
  case pos =>
    subst percent
    rcases rest with _ | ⟨high, _ | ⟨low, more⟩⟩
    · exact absurd read (Option.some_ne_none octets).symm
    · exact absurd read (Option.some_ne_none octets).symm
    · rw [octets?_escape] at read
      obtain ⟨octet, escape, found⟩ := Option.bind_eq_some_iff.mp read
      obtain ⟨later, laterRead, rfl⟩ := Option.map_eq_some_iff.mp found
      exact Or.inl ⟨high, low, more, octet, later, rfl, rfl, escape, laterRead, rfl⟩
  case neg =>
    rw [octets?_cons percent] at read
    obtain ⟨later, laterRead, rfl⟩ := Option.map_eq_some_iff.mp read
    exact Or.inr ⟨later, percent, laterRead, rfl⟩

/-- Only the empty text stands for no octets. -/
theorem octets?_eq_nil_iff {text : List Char}
    : octets? text = some [] ↔ text = [] := by
  refine ⟨?_, fun empty => empty ▸ rfl⟩
  intro read
  cases text with
  | nil => rfl
  | cons c rest =>
      obtain ⟨_, _, _, _, _, _, _, _, _, none⟩ | ⟨later, _, _, none⟩ := octets?_cons_cases read
      · exact absurd none.symm (List.cons_ne_nil _ _)
      · exact absurd (List.append_eq_nil_iff.mp none.symm).1 String.utf8EncodeChar_ne_nil

/-- The two digits of an octet write its halves. -/
theorem octet?_eq_some_iff {high low : Char} {octet : UInt8}
    : octet? high low = some octet
      ↔ Hex.Writes high (octet.toNat / 16) ∧ Hex.Writes low (octet.toNat % 16) := by
  constructor
  case mp =>
    intro read
    unfold octet? at read
    split at read
    case h_2 => exact absurd read (by simp)
    case h_1 h l highRead lowRead =>
      have highWrites := Hex.writes_of_value? highRead
      have lowWrites := Hex.writes_of_value? lowRead
      have value : octet.toNat = 16 * h + l := by
        have small : 16 * h + l < 256 := by
          have := highWrites.1
          have := lowWrites.1
          omega
        rw [← Option.some.inj read, UInt8.toNat_ofNat', Nat.mod_eq_of_lt small]
      have lowSmall := lowWrites.1
      have highHalf : octet.toNat / 16 = h := by omega
      have lowHalf : octet.toNat % 16 = l := by omega
      rw [highHalf, lowHalf]
      exact ⟨highWrites, lowWrites⟩
  case mpr =>
    rintro ⟨highWrites, lowWrites⟩
    have value : 16 * (octet.toNat / 16) + octet.toNat % 16 = octet.toNat := Nat.div_add_mod ..
    simp only [octet?, highWrites.value?, lowWrites.value?, value, UInt8.ofNat_toNat]

/-- A text without escapes stands for its own UTF-8 form, by induction on it. -/
theorem octets?_of_unescaped {text : List Char} (unescaped : '%' ∉ text)
    : octets? text = some (utf8 text) := by
  induction text with
  | nil => rfl
  | cons c rest ih =>
      have here : c ≠ '%' := fun same => unescaped (same ▸ List.mem_cons_self)
      have later := ih fun member => unescaped (List.mem_cons_of_mem c member)
      rw [octets?_cons here, later, Option.map_some, utf8_cons]

end Percent

end CompilerReports.Text
