import CompilerReports.Text.Casing

/-! Which texts have a lower-case form of plain ASCII characters. The table of case runs leads into
ASCII from two places only, the ASCII capitals and the Kelvin sign. So a plain word is the
lower-case form of its own spellings in ASCII and of nothing else.
-/

namespace CompilerReports.Text

-----------------------------------------------------------------------------------------
-- Single characters
-----------------------------------------------------------------------------------------

namespace CaseRun

def asciiCapitals : CaseRun := ⟨0x41, 0x5A, 1, 32⟩

/-- The Kelvin sign is the one character beyond ASCII that lies at a distance from an ASCII
letter.
-/
def kelvinSign : CaseRun := ⟨0x212A, 0x212A, 1, -8383⟩

/-- (StaysBeyond run) holds when the run lies beyond ASCII and all its forms are characters beyond
ASCII too, on one side of the surrogates.
-/
def StaysBeyond (run : CaseRun) : Prop :=
  128 ≤ run.first
  ∧ (128 ≤ run.first + run.distance ∧ run.last + run.distance < 0xD800
    ∨ 0xE000 ≤ run.first + run.distance ∧ run.last + run.distance < 0x110000)

instance (run : CaseRun) : Decidable run.StaysBeyond :=
  inferInstanceAs (Decidable (_ ∧ _))

/-- All other runs stay beyond ASCII, by the entries of the table. -/
theorem cases_of_mem {run : CaseRun} (member : run ∈ all)
    : run = asciiCapitals ∨ run = kelvinSign ∨ run.StaysBeyond := by
  have table
      : all.all (fun run => decide (run = asciiCapitals ∨ run = kelvinSign ∨ run.StaysBeyond))
        = true := by
    decide
  exact of_decide_eq_true (List.all_eq_true.mp table run member)

theorem covers_iff {run : CaseRun} {place : Nat}
    : run.covers place = true
      ↔ run.first ≤ place ∧ place ≤ run.last ∧ (place - run.first) % run.step = 0 := by
  simp only [covers, Bool.and_eq_true, decide_eq_true_eq, beq_iff_eq, and_assoc]

/-- A form at a distance that stays beyond ASCII is a character beyond ASCII. -/
theorem StaysBeyond.le_toNat {run : CaseRun} (stays : run.StaysBeyond) {place : Nat}
    (covered : run.covers place = true)
    : 128 ≤ place ∧ 128 ≤ (Char.ofNat (place + run.distance).toNat).toNat := by
  obtain ⟨least, sides⟩ := stays
  obtain ⟨above, below, -⟩ := covers_iff.mp covered
  have valid : (place + run.distance).toNat.isValidChar := by
    rcases sides with ⟨_, _⟩ | ⟨_, _⟩
    · exact Or.inl (by omega)
    · exact Or.inr ⟨by omega, by omega⟩
  have form : Char.ofNat (place + run.distance).toNat
      = Char.ofNatAux (place + run.distance).toNat valid := dif_pos valid
  have formPlace : (Char.ofNatAux (place + run.distance).toNat valid).toNat
      = (place + run.distance).toNat := rfl
  rw [form, formPlace]
  omega

end CaseRun

/-- A character is lowered as ASCII has it, or is the Kelvin sign, or has no part in ASCII. -/
theorem lowerChar_cases (c : Char)
    : lowerChar c = c.toLower
      ∨ c = '\u212a' ∧ lowerChar c = 'k'
      ∨ 128 ≤ c.toNat ∧ 128 ≤ (lowerChar c).toNat := by
  by_cases capital : 65 ≤ c.toNat ∧ c.toNat ≤ 90
  case pos =>
    have letters : ∀ k < 26, lowerChar (Char.ofNat (65 + k)) = (Char.ofNat (65 + k)).toLower := by
      decide
    have letter := letters (c.toNat - 65) (by omega)
    rw [Nat.add_sub_cancel' capital.1, Char.ofNat_toNat] at letter
    exact Or.inl letter
  case neg =>
    have kept : c.toLower = c := dif_neg capital
    unfold lowerChar
    cases found : CaseRun.all.find? (·.covers c.toNat) with
    | none => exact Or.inl kept.symm
    | some run =>
        have covered := List.find?_some found
        rcases CaseRun.cases_of_mem (List.mem_of_find?_eq_some found) with rfl | rfl | stays
        · obtain ⟨above, below, -⟩ := CaseRun.covers_iff.mp covered
          exact absurd ⟨above, below⟩ capital
        · obtain ⟨above, below, -⟩ := CaseRun.covers_iff.mp covered
          have sign : c = '\u212a' := Char.toNat_inj.mp (Nat.le_antisymm below above)
          subst sign
          exact Or.inr (Or.inl ⟨rfl, rfl⟩)
        · exact Or.inr (Or.inr (stays.le_toNat covered))

/-- (IsPlain c) holds of the ASCII characters that are in the lower-case form of no character beyond
ASCII.
-/
structure IsPlain (c : Char) : Prop where
  ascii : c.toNat < 128
  notKelvin : c ≠ 'k'
  notDotted : c ≠ 'i'

instance (c : Char) : Decidable (IsPlain c) :=
  decidable_of_iff (c.toNat < 128 ∧ c ≠ 'k' ∧ c ≠ 'i')
    ⟨fun ⟨ascii, notKelvin, notDotted⟩ => ⟨ascii, notKelvin, notDotted⟩,
      fun plain => ⟨plain.ascii, plain.notKelvin, plain.notDotted⟩⟩

/-- Beyond ASCII the case of ASCII letters changes nothing. -/
theorem toLower_of_beyond {c : Char} (beyond : 128 ≤ c.toNat)
    : c.toLower = c :=
  dif_neg fun capital : 65 ≤ c.toNat ∧ c.toNat ≤ 90 => by omega

theorem toLower_ne_of_beyond {c d : Char} (beyond : 128 ≤ c.toNat) (plain : IsPlain d)
    : c.toLower ≠ d := by
  rintro rfl
  have ascii := plain.ascii
  rw [toLower_of_beyond beyond] at ascii
  omega

/-- A plain character is the lower-case form of its own spellings in ASCII only. -/
theorem lowerChar_eq_iff {c d : Char} (plain : IsPlain d)
    : lowerChar c = d ↔ c.toLower = d := by
  rcases lowerChar_cases c with same | ⟨rfl, kelvin⟩ | ⟨beyond, formBeyond⟩
  · rw [same]
  · rw [kelvin]
    refine iff_of_false plain.notKelvin.symm (toLower_ne_of_beyond (by decide) plain)
  · refine iff_of_false ?_ (toLower_ne_of_beyond beyond plain)
    rintro rfl
    have ascii := plain.ascii
    omega

-----------------------------------------------------------------------------------------
-- Texts
-----------------------------------------------------------------------------------------

/-- Between any texts a character is lowered to some first character; that is a plain one where it
is the character's own ASCII form, and nothing else comes with it then.
-/
theorem lowerBetween_append_eq_cons_iff {before rest lowered word : List Char} {c d : Char}
    (plain : IsPlain d)
    : lowerBetween before c rest ++ lowered = d :: word ↔ c.toLower = d ∧ lowered = word := by
  have notFinal : '\u03c2' ≠ d := by
    rintro rfl
    exact absurd plain.ascii (by decide)
  unfold lowerBetween
  split
  case isTrue final =>
    obtain ⟨rfl, -⟩ := final
    have apart : capitalSigma.toLower ≠ d := toLower_ne_of_beyond (by decide) plain
    simp [notFinal, apart]
  case isFalse =>
    split
    case isTrue dotted =>
      subst dotted
      have apart : dottedCapitalI.toLower ≠ d := toLower_ne_of_beyond (by decide) plain
      simp [plain.notDotted.symm, apart]
    case isFalse =>
      simp [lowerChar_eq_iff plain]

theorem lowerBetween_ne_nil (before : List Char) (c : Char) (rest : List Char)
    : lowerBetween before c rest ≠ [] := by
  unfold lowerBetween
  split
  · exact List.cons_ne_nil _ _
  · split <;> exact List.cons_ne_nil _ _

/-- A plain word is the lower-case form of a text that spells it in ASCII letters of either case, by
induction on the text.
-/
theorem lowerAfter_eq_iff {text word : List Char} (before : List Char)
    (plain : ∀ d ∈ word, IsPlain d)
    : lowerAfter before text = word ↔ text.map Char.toLower = word := by
  induction text generalizing before word with
  | nil => rfl
  | cons c rest ih =>
      simp only [lowerAfter, List.map_cons]
      cases word with
      | nil => simp [lowerBetween_ne_nil]
      | cons d more =>
          obtain ⟨first, others⟩ := List.forall_mem_cons.mp plain
          rw [lowerBetween_append_eq_cons_iff first, List.cons.injEq, ih (c :: before) others]

theorem lower_eq_iff {text word : List Char} (plain : ∀ d ∈ word, IsPlain d)
    : lower text = word ↔ text.map Char.toLower = word :=
  lowerAfter_eq_iff [] plain

end CompilerReports.Text
