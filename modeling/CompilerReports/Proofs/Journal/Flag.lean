import CompilerReports.Journal
import CompilerReports.Proofs.Text.Casing

/-! The flags that enable tracing. Blanks come off both ends of a flag, and what is left must have a
plain word as its lower-case form. Such a text has no blank in it, so that a flag is taken apart in
one way: blanks, a spelling of an enabling word, and blanks.
-/

namespace CompilerReports

-----------------------------------------------------------------------------------------
-- Trimming
-----------------------------------------------------------------------------------------

namespace Text

/-- (AreBlank text) holds of the texts of blanks, the empty one included. -/
def AreBlank (text : List Char) : Prop := ∀ c ∈ text, isBlank c = true

variable {text left right : List Char}

/-- What is taken off the ends of a text is blank. -/
theorem exists_blanks_trimBlanks (text : List Char)
    : ∃ before after,
        AreBlank before ∧ AreBlank after ∧ text = before ++ trimBlanks text ++ after := by
  refine ⟨text.takeWhile isBlank, ((text.dropWhile isBlank).reverse.takeWhile isBlank).reverse,
    List.all_eq_true.mp List.all_takeWhile, ?_, ?_⟩
  · exact fun c member => List.all_eq_true.mp List.all_takeWhile c (List.mem_reverse.mp member)
  · rw [trimBlanks, List.append_assoc, dropEndWhile_append_takeWhile,
      List.takeWhile_append_dropWhile]

theorem dropWhile_of_areBlank (blank : AreBlank text)
    : text.dropWhile isBlank = [] := by
  have kept : (text ++ []).dropWhile isBlank = [] := List.dropWhile_append_of_pos blank
  rwa [List.append_nil] at kept

theorem dropEndWhile_append_of_areBlank (text : List Char) (blank : AreBlank right)
    : dropEndWhile isBlank (text ++ right) = dropEndWhile isBlank text := by
  have reversed : AreBlank right.reverse := fun c member => blank c (List.mem_reverse.mp member)
  rw [dropEndWhile, List.reverse_append, List.dropWhile_append_of_pos reversed]
  rfl

/-- Blanks on either side of a text do not change what is left of it. -/
theorem trimBlanks_append (text : List Char) (blankLeft : AreBlank left)
    (blankRight : AreBlank right)
    : trimBlanks (left ++ text ++ right) = trimBlanks text := by
  rw [trimBlanks, List.append_assoc, List.dropWhile_append_of_pos blankLeft, List.dropWhile_append]
  split
  case isTrue empty =>
    have none : text.dropWhile isBlank = [] := List.isEmpty_iff.mp empty
    rw [dropWhile_of_areBlank blankRight, trimBlanks, none]
  case isFalse =>
    rw [dropEndWhile_append_of_areBlank _ blankRight]
    rfl

/-- A text without blanks is left as it is. -/
theorem trimBlanks_of_solid (solid : ∀ c ∈ text, isBlank c = false)
    : trimBlanks text = text := by
  have kept {text : List Char} (solid : ∀ c ∈ text, isBlank c = false)
      : text.dropWhile isBlank = text := by
    cases text with
    | nil => rfl
    | cons c rest =>
        exact List.dropWhile_cons_of_neg (Bool.eq_false_iff.mp (solid c List.mem_cons_self))
  have reversed : ∀ c ∈ text.reverse, isBlank c = false :=
    fun c member => solid c (List.mem_reverse.mp member)
  rw [trimBlanks, kept solid, dropEndWhile, kept reversed, List.reverse_reverse]

/-- No letter is blank, so blanks are what they are in either case. -/
theorem toLower_of_isBlank {c : Char} (blank : isBlank c = true)
    : c.toLower = c := by
  refine dif_neg fun capital : 65 ≤ c.toNat ∧ c.toNat ≤ 90 => ?_
  simp only [isBlank, List.any_eq_true, Bool.and_eq_true, decide_eq_true_eq] at blank
  obtain ⟨range, member, above, below⟩ := blank
  have apart : blankRanges.all (fun range => decide (range.2 < 65 ∨ 90 < range.1)) = true := rfl
  have outside := of_decide_eq_true (List.all_eq_true.mp apart range member)
  omega

end Text

-----------------------------------------------------------------------------------------
-- Spellings
-----------------------------------------------------------------------------------------

namespace Tracing

/-- (Spells text) holds of the enabling words with ASCII letters of either case. -/
def Spells (text : List Char) : Prop :=
  String.ofList (text.map Char.toLower) ∈ ["1", "true", "yes"]

variable {text : List Char}

/-- The enabling words are plain and without blanks, by their letters. -/
theorem plain_of_mem_enablingWords {word : String} (enabling : word ∈ enablingWords)
    : ∀ d ∈ word.toList, Text.IsPlain d ∧ Text.isBlank d = false := by
  have letters
      : enablingWords.all (fun word => word.toList.all fun d =>
          decide (Text.IsPlain d ∧ Text.isBlank d = false))
        = true := by
    decide
  intro d member
  exact of_decide_eq_true
    (List.all_eq_true.mp (List.all_eq_true.mp letters word enabling) d member)

/-- Only spellings of the enabling words have one of them as their lower-case form. -/
theorem lower_mem_enablingWords_iff
    : String.ofList (Text.lower text) ∈ enablingWords ↔ Spells text := by
  have same {word : String} (enabling : word ∈ enablingWords)
      : String.ofList (Text.lower text) = word ↔ String.ofList (text.map Char.toLower) = word := by
    have plain : ∀ d ∈ word.toList, Text.IsPlain d :=
      fun d member => (plain_of_mem_enablingWords enabling d member).1
    rw [← String.toList_inj, ← String.toList_inj, String.toList_ofList, String.toList_ofList,
      Text.lower_eq_iff plain]
  constructor
  · intro enabling
    have spelled := (same enabling).mp rfl
    rwa [Spells, spelled]
  · intro spells
    have lowered := (same spells).mpr rfl
    rwa [lowered]

/-- A character of a spelling is one of an enabling word when its case is put aside. -/
theorem Spells.plain (spells : Spells text) {c : Char} (member : c ∈ text)
    : Text.IsPlain c.toLower ∧ Text.isBlank c.toLower = false := by
  refine plain_of_mem_enablingWords spells _ ?_
  rw [String.toList_ofList]
  exact List.mem_map_of_mem member

theorem Spells.ascii (spells : Spells text) {c : Char} (member : c ∈ text)
    : c.toNat < 128 :=
  Nat.lt_of_not_le fun beyond =>
    Text.toLower_ne_of_beyond beyond (spells.plain member).1 rfl

theorem Spells.solid (spells : Spells text)
    : ∀ c ∈ text, Text.isBlank c = false := by
  intro c member
  refine Bool.eq_false_iff.mpr fun blank => ?_
  have lowered := (spells.plain member).2
  rw [Text.toLower_of_isBlank blank, blank] at lowered
  cases lowered

-----------------------------------------------------------------------------------------
-- Flags
-----------------------------------------------------------------------------------------

/-- A flag enables tracing by what is left of it without its outer blanks. -/
theorem isEnabled_eq_true_iff {flag : String}
    : isEnabled (some flag) = true ↔ Spells (Text.trimBlanks flag.toList) := by
  rw [isEnabled, List.contains_iff_mem, lower_mem_enablingWords_iff]

/-- A flag of blanks, a spelling and blanks, part by part. -/
structure FlagReading (flag : String) where
  before : List Char
  word : List Char
  after : List Char
  blankBefore : Text.AreBlank before
  spells : Spells word
  blankAfter : Text.AreBlank after
  joined : flag.toList = before ++ word ++ after

variable {flag : String}

/-- What is left of a flag with a reading is the word of the reading. -/
theorem FlagReading.isEnabled (reading : FlagReading flag)
    : isEnabled (some flag) = true := by
  rw [isEnabled_eq_true_iff, reading.joined,
    Text.trimBlanks_append _ reading.blankBefore reading.blankAfter,
    Text.trimBlanks_of_solid reading.spells.solid]
  exact reading.spells

theorem nonempty_flagReading (enabled : Tracing.isEnabled (some flag) = true)
    : Nonempty (FlagReading flag) := by
  obtain ⟨before, after, blankBefore, blankAfter, joined⟩ :=
    Text.exists_blanks_trimBlanks flag.toList
  exact ⟨{
    before
    word := Text.trimBlanks flag.toList
    after
    blankBefore
    spells := isEnabled_eq_true_iff.mp enabled
    blankAfter
    joined
  }⟩

/-- A blank of an enabling flag stands on one of its ends: the word between them has none. -/
theorem FlagReading.blank_outside (reading : FlagReading flag) {left right : List Char} {c : Char}
    (parts : flag.toList = left ++ c :: right) (blank : Text.isBlank c = true)
    : Text.AreBlank left ∨ Text.AreBlank right := by
  rw [reading.joined, List.append_assoc] at parts
  rcases List.append_eq_append_iff.mp parts with ⟨inner, rfl, rest⟩ | ⟨inner, front, -⟩
  · rcases List.append_eq_append_iff.mp rest with ⟨outer, rfl, behind⟩ | ⟨tail, word, behind⟩
    · -- The blank stands behind the word.
      refine Or.inr fun d member => reading.blankAfter d ?_
      rw [behind]
      exact List.mem_append_right _ (List.mem_cons_of_mem _ member)
    · cases tail with
      | nil =>
          refine Or.inr fun d member => reading.blankAfter d ?_
          rw [List.nil_append] at behind
          rw [← behind]
          exact List.mem_cons_of_mem _ member
      | cons d more =>
          -- The blank would be a character of the word.
          obtain ⟨rfl, -⟩ := List.cons.inj behind
          have solid := reading.spells.solid c (word ▸ List.mem_append_right _ List.mem_cons_self)
          rw [blank] at solid
          cases solid
  · refine Or.inl fun d member => reading.blankBefore d ?_
    rw [front]
    exact List.mem_append_left _ member

/-- A flag enables tracing exactly when it is made of blanks, a spelling of `1`, `true` or `yes` in
ASCII letters of either case, and blanks. So nothing beyond ASCII but blanks is in such a flag,
whatever it has as its lower-case form; a blank in it stands on one of its ends; and blanks at
the ends of any flag change nothing.
-/
theorem isEnabled_iff_spelled (flag : String)
    : (isEnabled (some flag) = true
        ↔ ∃ before word after,
            flag.toList = before ++ word ++ after
            ∧ (∀ c ∈ before, Text.isBlank c = true)
            ∧ String.ofList (word.map Char.toLower) ∈ ["1", "true", "yes"]
            ∧ ∀ c ∈ after, Text.isBlank c = true)
      ∧ (isEnabled (some flag) = true
        → ∀ c ∈ flag.toList, 128 ≤ c.toNat → Text.isBlank c = true)
      ∧ (isEnabled (some flag) = true
        → ∀ left c right,
            flag.toList = left ++ c :: right
            → Text.isBlank c = true
            → (∀ d ∈ left, Text.isBlank d = true) ∨ ∀ d ∈ right, Text.isBlank d = true)
      ∧ ∀ left right,
          (∀ c ∈ left, Text.isBlank c = true)
          → (∀ c ∈ right, Text.isBlank c = true)
          → isEnabled (some (String.ofList left ++ flag ++ String.ofList right))
            = isEnabled (some flag) := by
  refine ⟨⟨?_, ?_⟩, ?_, ?_, ?_⟩
  · intro enabled
    obtain ⟨reading⟩ := nonempty_flagReading enabled
    exact ⟨reading.before, reading.word, reading.after, reading.joined, reading.blankBefore,
      reading.spells, reading.blankAfter⟩
  · rintro ⟨before, word, after, joined, blankBefore, spells, blankAfter⟩
    exact FlagReading.isEnabled { before, word, after, blankBefore, spells, blankAfter, joined }
  · intro enabled c member beyond
    obtain ⟨reading⟩ := nonempty_flagReading enabled
    rw [reading.joined, List.mem_append, List.mem_append] at member
    rcases member with (front | inner) | behind
    · exact reading.blankBefore c front
    · exact absurd (reading.spells.ascii inner) (Nat.not_lt.mpr beyond)
    · exact reading.blankAfter c behind
  · intro enabled left c right parts blank
    obtain ⟨reading⟩ := nonempty_flagReading enabled
    exact reading.blank_outside parts blank
  · intro left right blankLeft blankRight
    rw [Bool.eq_iff_iff, isEnabled_eq_true_iff, isEnabled_eq_true_iff, String.toList_append,
      String.toList_append, String.toList_ofList, String.toList_ofList,
      Text.trimBlanks_append _ blankLeft blankRight]

end Tracing

end CompilerReports
