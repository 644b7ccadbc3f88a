import CompilerReports.Text.Pieces

/-! Pieces as a splitting of lists. Pieces hold no marks, texts without a mark that are joined by it
are the pieces of what they are joined to, and what stands before a text without marks is part of
its first piece.
-/

namespace CompilerReports.Text

/-- Pieces are what the splitting of lists at the marks gives, by induction on the text. -/
theorem pieces_eq_splitOnP (isMark : Char → Bool) (text : List Char)
    : pieces isMark text = text.splitOnP isMark := by
  induction text with
  | nil => rfl
  | cons c rest ih =>
      rw [pieces, List.splitOnP_cons_eq_if_modifyHead, ih]
      split
      case isTrue => rfl
      case isFalse =>
        cases found : rest.splitOnP isMark with
        | nil => exact absurd found (List.splitOnP_ne_nil isMark rest)
        | cons piece more => rfl

/-- Texts without a mark that are joined by it are the pieces of what they are joined to. -/
theorem pieces_intercalate (mark : Char) {texts : List (List Char)} (given : texts ≠ [])
    (unmarked : ∀ text ∈ texts, mark ∉ text)
    : pieces (· == mark) ([mark].intercalate texts) = texts := by
  rw [pieces_eq_splitOnP]
  exact List.splitOn_intercalate mark unmarked given

/-- The pieces between the marks of one sort are joined to the text again by such marks. -/
theorem intercalate_pieces (mark : Char) (text : List Char)
    : [mark].intercalate (pieces (· == mark) text) = text := by
  rw [pieces_eq_splitOnP]
  exact List.intercalate_splitOn mark

/-- Lines that are joined by line feeds are the lines of the text they are joined to. -/
theorem lines_intercalate {texts : List (List Char)} (given : texts ≠ [])
    (oneLine : ∀ text ∈ texts, '\n' ∉ text)
    : lines (['\n'].intercalate texts) = texts :=
  pieces_intercalate '\n' given oneLine

/-- No piece holds a mark, by induction on the text. -/
theorem unmarked_of_mem_pieces {isMark : Char → Bool} {text piece : List Char}
    (member : piece ∈ pieces isMark text)
    : ∀ c ∈ piece, isMark c = false := by
  induction text generalizing piece with
  | nil =>
      cases List.mem_singleton.mp member
      exact List.forall_mem_nil _
  | cons c rest ih =>
      simp only [pieces] at member
      split at member
      case isTrue =>
        rcases List.mem_cons.mp member with rfl | later
        · exact List.forall_mem_nil _
        · exact ih later
      case isFalse unmarked =>
        cases found : pieces isMark rest with
        | nil => exact absurd found (pieces_ne_nil isMark rest)
        | cons first more =>
            rw [found] at member ih
            rcases List.mem_cons.mp member with rfl | later
            · exact List.forall_mem_cons.mpr
                ⟨Bool.eq_false_iff.mpr unmarked, ih List.mem_cons_self⟩
            · exact ih (List.mem_cons_of_mem _ later)

/-- (AreLines texts text) holds when the text consists of the texts and of one line feed between any
two of them, and none of the texts holds a line feed.
-/
structure AreLines (texts : List (List Char)) (text : List Char) : Prop where
  given : texts ≠ []
  oneLine : ∀ line ∈ texts, '\n' ∉ line
  joined : text = ['\n'].intercalate texts

/-- Every text consists of its lines, and of no other texts. -/
theorem areLines_iff {texts : List (List Char)} {text : List Char}
    : AreLines texts text ↔ lines text = texts := by
  constructor
  · rintro ⟨given, oneLine, rfl⟩
    exact lines_intercalate given oneLine
  · rintro rfl
    refine ⟨pieces_ne_nil _ text, ?_, (intercalate_pieces '\n' text).symm⟩
    intro line member feed
    exact Bool.noConfusion (unmarked_of_mem_pieces member '\n' feed)

/-- Only the marks that occur in a text count. -/
theorem pieces_congr {isMark isOther : Char → Bool} {text : List Char}
    (alike : ∀ c ∈ text, isMark c = isOther c)
    : pieces isMark text = pieces isOther text := by
  induction text with
  | nil => rfl
  | cons c rest ih =>
      obtain ⟨here, later⟩ := List.forall_mem_cons.mp alike
      rw [pieces, pieces, here, ih later]

/-- Items without marks that stand before a list are part of its first piece. -/
theorem splitOnP_append_of_unmarked {α : Type} {isMark : α → Bool} {first : List α}
    (unmarked : ∀ item ∈ first, isMark item = false) (rest : List α)
    : (first ++ rest).splitOnP isMark = (rest.splitOnP isMark).modifyHead (first ++ ·) := by
  induction first with
  | nil =>
      rw [List.nil_append]
      cases rest.splitOnP isMark <;> rfl
  | cons item more ih =>
      obtain ⟨here, later⟩ := List.forall_mem_cons.mp unmarked
      rw [List.cons_append, List.splitOnP_cons_eq_if_modifyHead, here, ih later]
      cases rest.splitOnP isMark <;> rfl

end CompilerReports.Text
