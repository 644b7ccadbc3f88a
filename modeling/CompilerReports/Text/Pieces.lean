/-! The pieces of a text between its marks. A text with n marks has n + 1 pieces, and joining
two texts with a mark joins their pieces.
-/

namespace CompilerReports.Text

/-- The pieces of a text between the characters that are marks, empty pieces included. -/
def pieces (isMark : Char → Bool) : List Char → List (List Char)
  | [] => [[]]
  | c :: rest =>
      if isMark c then
        [] :: pieces isMark rest
      else
        match pieces isMark rest with
        | [] => [[c]]
        | piece :: more => (c :: piece) :: more

/-- The lines of a text, which line feeds separate. -/
def lines (text : List Char) : List (List Char) := pieces (· == '\n') text

theorem pieces_ne_nil (isMark : Char → Bool) (text : List Char)
    : pieces isMark text ≠ [] := by
  cases text with
  | nil => simp [pieces]
  | cons c rest =>
      unfold pieces
      split
      · simp
      · split <;> simp

/-- A mark between two texts separates their pieces, by induction on the first text. -/
theorem pieces_append_cons {isMark : Char → Bool} {mark : Char} (marked : isMark mark = true)
    (left right : List Char)
    : pieces isMark (left ++ mark :: right) = pieces isMark left ++ pieces isMark right := by
  induction left with
  | nil => simp [pieces, marked]
  | cons c rest ih =>
      simp only [List.cons_append, pieces]
      by_cases here : isMark c = true
      · simp [here, ih]
      · simp only [here, Bool.false_eq_true, ↓reduceIte, ih]
        have first := pieces_ne_nil isMark rest
        cases found : pieces isMark rest with
        | nil => exact absurd found first
        | cons piece more => simp

/-- A text without marks is its own only piece. -/
theorem pieces_of_unmarked {isMark : Char → Bool} {text : List Char}
    (unmarked : ∀ c ∈ text, isMark c = false)
    : pieces isMark text = [text] := by
  induction text with
  | nil => rfl
  | cons c rest ih =>
      have here := unmarked c (List.mem_cons_self ..)
      have later := ih fun d member => unmarked d (List.mem_cons_of_mem _ member)
      simp [pieces, here, later]

end CompilerReports.Text
