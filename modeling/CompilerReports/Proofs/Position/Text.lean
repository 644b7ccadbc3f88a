import CompilerReports.Position
import CompilerReports.Proofs.Binary64.Text

/-! The text of a point identifies the point. A file name may hold anything, the text of a point
included, so the text is taken apart from its end: no number has a parenthesis or a comma in its
text, so that the last opening parenthesis ends the file and the last comma ends the line.
-/

namespace CompilerReports

/-- A text splits in one way at the last place of a mark. -/
theorem Text.append_cons_inj_of_notMem_right {mark : Char} {left right other others : List Char}
    (unmarked : mark ∉ right) (othersUnmarked : mark ∉ others)
    (same : left ++ mark :: right = other ++ mark :: others)
    : left = other ∧ right = others := by
  rcases List.append_eq_append_iff.mp same with ⟨between, rfl, rest⟩ | ⟨between, rfl, rest⟩
  · cases between with
    | nil => exact ⟨(List.append_nil _).symm, (List.cons.inj rest).2⟩
    | cons c more =>
        obtain ⟨-, rfl⟩ := List.cons.inj rest
        exact absurd (List.mem_append_right more List.mem_cons_self) unmarked
  · cases between with
    | nil => exact ⟨List.append_nil _, (List.cons.inj rest).2.symm⟩
    | cons c more =>
        obtain ⟨-, rfl⟩ := List.cons.inj rest
        exact absurd (List.mem_append_right more List.mem_cons_self) othersUnmarked

namespace Point

open Binary64

/-- The characters behind the file and the parenthesis. -/
def placeChars (point : Point) : List Char :=
  point.line.chars ++ ',' :: ' ' :: (point.column.chars ++ [')'])

theorem toList_text (point : Point)
    : point.text.toList = point.file.toList ++ '(' :: point.placeChars := by
  simp [text, placeChars, Binary64.text]

theorem notMem_placeChars (point : Point)
    : '(' ∉ point.placeChars := by
  have line : '(' ∉ point.line.chars := notMem_chars _ rfl (by decide)
  have column : '(' ∉ point.column.chars := notMem_chars _ rfl (by decide)
  simp [placeChars, line, column]

theorem placeChars_eq_iff {point other : Point}
    : point.placeChars = other.placeChars
      ↔ point.line.SameNumber other.line ∧ point.column.SameNumber other.column := by
  have unmarked : ∀ x : Binary64, ',' ∉ ' ' :: (x.chars ++ [')']) := by
    intro x
    have number : ',' ∉ x.chars := notMem_chars _ rfl (by decide)
    simp [number]
  simp only [placeChars, ← chars_eq_iff]
  constructor
  · intro same
    obtain ⟨line, rest⟩ :=
      Text.append_cons_inj_of_notMem_right (unmarked _) (unmarked _) same
    exact ⟨line, List.append_cancel_right (List.cons.inj rest).2⟩
  · rintro ⟨line, column⟩
    rw [line, column]

/-- The text of a point is its file and its two numbers, each with its shortest digits. Points have
one text only if they have one file and the same numbers, whatever their files hold.
-/
theorem text_identifies (point : Point)
    : (∃ line column,
        Prints point.line line
        ∧ Prints point.column column
        ∧ point.text.toList
          = point.file.toList ++ '(' :: (line ++ ',' :: ' ' :: (column ++ [')'])))
      ∧ ∀ other : Point,
          point.text = other.text
          ↔ point.file = other.file
            ∧ point.line.SameNumber other.line
            ∧ point.column.SameNumber other.column := by
  refine ⟨⟨_, _, prints_chars _, prints_chars _, point.toList_text⟩, fun other => ?_⟩
  rw [← String.toList_inj, toList_text, toList_text, ← placeChars_eq_iff, ← String.toList_inj]
  constructor
  · exact Text.append_cons_inj_of_notMem_right point.notMem_placeChars other.notMem_placeChars
  · rintro ⟨file, place⟩
    rw [file, place]

/-- A file may end in what looks like the place of a point. -/
example
    : text ⟨"a(1, 2)", ofNat 3, .infinite true⟩ = "a(1, 2)(3, -Infinity)" := by
  decide

end Point

end CompilerReports
