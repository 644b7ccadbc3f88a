import CompilerReports.Frame

/-! The grammar of frame lines, and its agreement with the reader that takes a line apart. The
reader works from both ends: blanks and the word `at` come off the front, the two numbers off the
back, and what is left between them is the description. A description is cut at the first place
where a procedure name can end.
-/

namespace CompilerReports.FrameLine

-----------------------------------------------------------------------------------------
-- Readings
-----------------------------------------------------------------------------------------

/-- (IsRun digits) holds of the runs of digits that write a number. -/
structure IsRun (digits : List Char) : Prop where
  nonempty : digits ≠ []
  digits : ∀ c ∈ digits, c.isDigit = true

/-- (IsClosing text) holds of what may stand behind the numbers: nothing, or one parenthesis. -/
def IsClosing (text : List Char) : Prop := text = [] ∨ text = [')']

/-- A reading of a text as a frame line, part by part. -/
structure Reading (text : List Char) where
  blanks : List Char
  description : List Char
  line : List Char
  column : List Char
  closing : List Char
  blank : ∀ c ∈ blanks, Text.isBlank c = true
  described : description ≠ []
  oneLine : ∀ c ∈ description, Text.isLineTerminator c = false
  lineRun : IsRun line
  columnRun : IsRun column
  closes : IsClosing closing
  joined
    : blanks ++ ['a', 't', ' '] ++ description ++ [':'] ++ line ++ [':'] ++ column ++ closing
      = text

/-- (CutsAt description k) holds when a procedure name of `k` characters can be cut off: a space
and a parenthesis follow it, and something follows them.
-/
structure CutsAt (description : List Char) (k : Nat) : Prop where
  named : 1 ≤ k
  marked : (description.drop k).take 2 = [' ', '(']
  followed : k + 2 < description.length

/-- (FirstCut description k) holds of the shortest procedure name that can be cut off. -/
structure FirstCut (description : List Char) (k : Nat) : Prop where
  cuts : CutsAt description k
  least : ∀ j < k, ¬ CutsAt description j

-----------------------------------------------------------------------------------------
-- The numbers
-----------------------------------------------------------------------------------------

/-- A colon is no digit, so a reversed text gives up its last run of digits and no more. -/
theorem takeNumber_eq_some_iff {reversed digits rest : List Char}
    : takeNumber reversed = some (digits, rest)
      ↔ IsRun digits ∧ reversed = digits.reverse ++ ':' :: rest := by
  constructor
  · intro taken
    simp only [takeNumber] at taken
    split at taken
    case h_1 before dropped =>
      split at taken
      · cases taken
      case isFalse some =>
        obtain ⟨rfl, rfl⟩ := Prod.mk.inj (Option.some.inj taken)
        refine ⟨⟨?_, ?_⟩, ?_⟩
        · simpa using some
        · intro c member
          exact List.all_eq_true.mp List.all_takeWhile c (List.mem_reverse.mp member)
        · rw [List.reverse_reverse, ← dropped, List.takeWhile_append_dropWhile]
    · cases taken
  · intro parts
    obtain ⟨run, rfl⟩ := parts
    have all : ∀ c ∈ digits.reverse, c.isDigit = true :=
      fun c member => run.digits c (List.mem_reverse.mp member)
    have taken : (digits.reverse ++ ':' :: rest).takeWhile Char.isDigit = digits.reverse := by
      rw [List.takeWhile_append_of_pos all]
      simp
    have dropped : (digits.reverse ++ ':' :: rest).dropWhile Char.isDigit = ':' :: rest := by
      rw [List.dropWhile_append_of_pos all]
      simp
    have nonempty := run.nonempty
    simp [takeNumber, taken, dropped, nonempty]

/-- The text behind a description: a line and a column, each after its colon, and a closing. -/
structure Numbered (tail line column : List Char) : Prop where
  lineRun : IsRun line
  columnRun : IsRun column
  joined : ∃ closing, IsClosing closing ∧ tail = ':' :: (line ++ ':' :: (column ++ closing))

theorem dropParenthesis_of_ne {c : Char} {rest : List Char} (other : c ≠ ')')
    : dropParenthesis (c :: rest) = c :: rest := by
  rw [dropParenthesis]
  rintro rest' same
  exact other (List.cons.inj same).1

/-- A closing comes off a reversed text that has a digit before it. -/
theorem dropParenthesis_of_closing {closing digits : List Char} (closes : IsClosing closing)
    (run : IsRun digits) (before : List Char)
    : dropParenthesis (closing.reverse ++ (digits.reverse ++ before))
      = digits.reverse ++ before := by
  rcases closes with rfl | rfl
  · obtain ⟨last, more, reversed⟩ := List.exists_cons_of_ne_nil
      (List.reverse_ne_nil_iff.mpr run.nonempty)
    have member : last ∈ digits := List.mem_reverse.mp (reversed ▸ List.mem_cons_self)
    have other : last ≠ ')' := by
      rintro rfl
      exact absurd (run.digits _ member) (by decide)
    rw [reversed]
    exact dropParenthesis_of_ne other
  · rfl

theorem exists_closing (reversed : List Char)
    : ∃ closing, IsClosing closing ∧ reversed = closing.reverse ++ dropParenthesis reversed := by
  unfold dropParenthesis
  split
  · exact ⟨[')'], Or.inr rfl, rfl⟩
  · exact ⟨[], Or.inl rfl, rfl⟩

/-- The numbers come off a text in one way: what stands before them is the description, whatever
colons, digits and parentheses it holds.
-/
theorem splitNumbers_eq_some_iff {text description line column : List Char}
    : splitNumbers text = some (description, line, column)
      ↔ ∃ tail, Numbered tail line column ∧ text = description ++ tail := by
  constructor
  · intro split
    simp only [splitNumbers, Option.pure_def, Option.bind_eq_bind, Option.bind_eq_some_iff,
      Option.some.injEq, Prod.mk.injEq, Prod.exists] at split
    obtain ⟨_, _, takenColumn, _, _, takenLine, rfl, rfl, rfl⟩ := split
    obtain ⟨columnRun, beforeColumn⟩ := takeNumber_eq_some_iff.mp takenColumn
    obtain ⟨lineRun, rfl⟩ := takeNumber_eq_some_iff.mp takenLine
    obtain ⟨closing, closes, reversed⟩ := exists_closing text.reverse
    refine ⟨_, ⟨lineRun, columnRun, closing, closes, rfl⟩, ?_⟩
    rw [beforeColumn] at reversed
    have whole := congrArg List.reverse reversed
    simpa using whole
  · intro parts
    obtain ⟨tail, ⟨lineRun, columnRun, closing, closes, rfl⟩, rfl⟩ := parts
    have reversed
        : (description ++ ':' :: (line ++ ':' :: (column ++ closing))).reverse
          = closing.reverse ++ (column.reverse
              ++ ':' :: (line.reverse ++ ':' :: description.reverse)) := by
      simp
    have takenColumn := takeNumber_eq_some_iff.mpr
      ⟨columnRun, Eq.refl (column.reverse ++ ':' :: (line.reverse ++ ':' :: description.reverse))⟩
    have takenLine := takeNumber_eq_some_iff.mpr
      ⟨lineRun, Eq.refl (line.reverse ++ ':' :: description.reverse)⟩
    simp [splitNumbers, reversed, dropParenthesis_of_closing closes columnRun, takenColumn,
      takenLine]

-----------------------------------------------------------------------------------------
-- The front of a line
-----------------------------------------------------------------------------------------

/-- The word `at` is not blank, so the blanks before it come off in one way. -/
theorem afterAt_eq_some_iff {text rest : List Char}
    : afterAt text = some rest
      ↔ ∃ blanks, (∀ c ∈ blanks, Text.isBlank c = true)
          ∧ text = blanks ++ 'a' :: 't' :: ' ' :: rest := by
  constructor
  · intro after
    simp only [afterAt] at after
    split at after
    case h_1 dropped =>
      cases after
      refine ⟨text.takeWhile Text.isBlank, ?_, ?_⟩
      · exact List.all_eq_true.mp List.all_takeWhile
      · rw [← dropped, List.takeWhile_append_dropWhile]
    · cases after
  · intro parts
    obtain ⟨blanks, blank, rfl⟩ := parts
    have dropped
        : (blanks ++ 'a' :: 't' :: ' ' :: rest).dropWhile Text.isBlank
          = 'a' :: 't' :: ' ' :: rest := by
      rw [List.dropWhile_append_of_pos blank, List.dropWhile_cons_of_neg (by decide)]
    simp only [afterAt, dropped]

-----------------------------------------------------------------------------------------
-- The cut of a description
-----------------------------------------------------------------------------------------

/-- A procedure name and a file with the cut between them. -/
theorem cutsAt_append {name file : List Char} (named : name ≠ []) (followed : file ≠ [])
    : CutsAt (name ++ ' ' :: '(' :: file) name.length := by
  have nameLength := List.length_pos_iff.mpr named
  have fileLength := List.length_pos_iff.mpr followed
  refine ⟨nameLength, ?_, ?_⟩
  · rw [List.drop_left]
    rfl
  · simp only [List.length_append, List.length_cons]
    omega

theorem CutsAt.eq_append {description : List Char} {k : Nat} (cuts : CutsAt description k)
    : description.take k ++ ' ' :: '(' :: description.drop (k + 2) = description := by
  have behind : description.drop k = [' ', '('] ++ description.drop (k + 2) := by
    rw [← cuts.marked, ← List.drop_drop, List.take_append_drop]
  have whole := List.take_append_drop k description
  rw [behind] at whole
  exact whole

theorem CutsAt.length_take {description : List Char} {k : Nat} (cuts : CutsAt description k)
    : (description.take k).length = k := by
  have followed := cuts.followed
  rw [List.length_take]
  omega

theorem CutsAt.take_ne_nil {description : List Char} {k : Nat} (cuts : CutsAt description k)
    : description.take k ≠ [] := by
  have named := cuts.named
  have length := cuts.length_take
  exact List.length_pos_iff.mp (by omega)

theorem CutsAt.drop_ne_nil {description : List Char} {k : Nat} (cuts : CutsAt description k)
    : description.drop (k + 2) ≠ [] := by
  have followed := cuts.followed
  refine List.length_pos_iff.mp ?_
  rw [List.length_drop]
  omega

theorem cutsAt_one_iff {c : Char} {rest : List Char}
    : CutsAt (c :: rest) 1 ↔ ∃ d file, rest = ' ' :: '(' :: d :: file := by
  constructor
  · intro cuts
    obtain ⟨_, marked, followed⟩ := cuts
    rcases rest with _ | ⟨space, _ | ⟨mark, _ | ⟨d, file⟩⟩⟩
    · simp at followed
    · simp at followed
    · simp at followed
    · simp only [List.drop_succ_cons, List.drop_zero, List.take_succ_cons, List.take_zero,
        List.cons.injEq, and_true] at marked
      obtain ⟨rfl, rfl⟩ := marked
      exact ⟨d, file, rfl⟩
  · intro parts
    obtain ⟨d, file, rfl⟩ := parts
    exact ⟨Nat.le_refl 1, rfl, by simp⟩

theorem cutsAt_succ_iff {c : Char} {rest : List Char} {k : Nat} (named : 1 ≤ k)
    : CutsAt (c :: rest) (k + 1) ↔ CutsAt rest k := by
  constructor
  · intro cuts
    obtain ⟨_, marked, followed⟩ := cuts
    refine ⟨named, marked, ?_⟩
    simp only [List.length_cons] at followed
    omega
  · intro cuts
    obtain ⟨_, marked, followed⟩ := cuts
    refine ⟨by omega, marked, ?_⟩
    simp only [List.length_cons]
    omega

theorem splitProcedure_of_cutsAt_one (c d : Char) (file : List Char)
    : splitProcedure (c :: ' ' :: '(' :: d :: file) = some ([c], d :: file) := by
  rw [splitProcedure]

/-- Where no cut follows the first character, that character belongs to the procedure name. -/
theorem splitProcedure_cons {c : Char} {rest : List Char} (uncut : ¬ CutsAt (c :: rest) 1)
    : splitProcedure (c :: rest)
      = (splitProcedure rest).map fun (name, file) => (c :: name, file) := by
  rw [splitProcedure]
  rintro d file rfl
  exact uncut (cutsAt_one_iff.mpr ⟨d, file, rfl⟩)

/-- The reader cuts a description at its first cut, by induction on the characters before it. -/
theorem splitProcedure_of_firstCut {description : List Char} {k : Nat}
    (first : FirstCut description k)
    : splitProcedure description = some (description.take k, description.drop (k + 2)) := by
  induction description generalizing k with
  | nil => exact absurd first.cuts.followed (by simp)
  | cons c rest ih =>
      obtain ⟨j, rfl⟩ := Nat.exists_eq_add_of_le' first.cuts.named
      cases j with
      | zero =>
          obtain ⟨d, file, rfl⟩ := cutsAt_one_iff.mp first.cuts
          exact splitProcedure_of_cutsAt_one c d file
      | succ i =>
          have uncut : ¬ CutsAt (c :: rest) 1 := first.least 1 (by omega)
          have later : FirstCut rest (i + 1) := by
            refine ⟨(cutsAt_succ_iff (by omega)).mp first.cuts, ?_⟩
            intro j below cuts
            have named := cuts.named
            exact first.least (j + 1) (by omega) ((cutsAt_succ_iff named).mpr cuts)
          rw [splitProcedure_cons uncut, ih later]
          rfl

/-- Without a cut the whole description names the file. -/
theorem splitProcedure_of_uncut {description : List Char} (uncut : ∀ k, ¬ CutsAt description k)
    : splitProcedure description = none := by
  induction description with
  | nil => rfl
  | cons c rest ih =>
      have later : ∀ k, ¬ CutsAt rest k := fun k cuts =>
        uncut (k + 1) ((cutsAt_succ_iff cuts.named).mpr cuts)
      rw [splitProcedure_cons (uncut 1), ih later]
      rfl

/-- Below any cut there is a first one, by strong induction on its place. -/
theorem CutsAt.exists_firstCut {description : List Char} {k : Nat} (cuts : CutsAt description k)
    : ∃ first, FirstCut description first := by
  induction k using Nat.strongRecOn with
  | ind k ih =>
      by_cases earlier : ∃ j, j < k ∧ CutsAt description j
      · obtain ⟨j, below, cutsEarlier⟩ := earlier
        exact ih j below cutsEarlier
      · exact ⟨k, cuts, fun j below cutsEarlier => earlier ⟨j, below, cutsEarlier⟩⟩

theorem exists_firstCut_or_uncut (description : List Char)
    : (∃ k, FirstCut description k) ∨ ∀ k, ¬ CutsAt description k := by
  by_cases cut : ∃ k, CutsAt description k
  · obtain ⟨k, cuts⟩ := cut
    exact Or.inl cuts.exists_firstCut
  · exact Or.inr fun k cuts => cut ⟨k, cuts⟩

-----------------------------------------------------------------------------------------
-- The reader and the grammar
-----------------------------------------------------------------------------------------

theorem isDescription_iff {text : List Char}
    : isDescription text = true
      ↔ text ≠ [] ∧ ∀ c ∈ text, Text.isLineTerminator c = false := by
  simp [isDescription, List.any_eq_false]

namespace Reading

variable {text : List Char}

/-- The parts that a reading gives a frame: a cut description gives the procedure its name. -/
def parts (reading : Reading text) : FrameLine :=
  match splitProcedure reading.description with
  | some (name, file) =>
      { procedure := some name, file, line := reading.line, column := reading.column }
  | none =>
      { procedure := none, file := reading.description, line := reading.line,
        column := reading.column }

theorem isDescription (reading : Reading text) : isDescription reading.description = true :=
  isDescription_iff.mpr ⟨reading.described, reading.oneLine⟩

theorem parts_of_firstCut (reading : Reading text) {k : Nat}
    (first : FirstCut reading.description k)
    : reading.parts = {
        procedure := some (reading.description.take k)
        file := reading.description.drop (k + 2)
        line := reading.line
        column := reading.column } := by
  rw [parts, splitProcedure_of_firstCut first]

theorem parts_of_uncut (reading : Reading text) (uncut : ∀ k, ¬ CutsAt reading.description k)
    : reading.parts = {
        procedure := none
        file := reading.description
        line := reading.line
        column := reading.column } := by
  rw [parts, splitProcedure_of_uncut uncut]

/-- The text behind the description of a reading. -/
def tail (reading : Reading text) : List Char :=
  ':' :: (reading.line ++ ':' :: (reading.column ++ reading.closing))

theorem numbered (reading : Reading text)
    : Numbered reading.tail reading.line reading.column :=
  ⟨reading.lineRun, reading.columnRun, reading.closing, reading.closes, rfl⟩

theorem eq_append_tail (reading : Reading text)
    : text = reading.blanks ++ 'a' :: 't' :: ' ' :: (reading.description ++ reading.tail) := by
  have joined := reading.joined
  simp only [List.append_assoc, List.cons_append, List.nil_append] at joined
  exact joined.symm

theorem afterAt_eq (reading : Reading text)
    : afterAt text = some (reading.description ++ reading.tail) :=
  afterAt_eq_some_iff.mpr ⟨reading.blanks, reading.blank, reading.eq_append_tail⟩

theorem splitNumbers_eq (reading : Reading text)
    : splitNumbers (reading.description ++ reading.tail)
      = some (reading.description, reading.line, reading.column) :=
  splitNumbers_eq_some_iff.mpr ⟨reading.tail, reading.numbered, rfl⟩

/-- A text that has a reading is taken apart into the parts of that reading. -/
theorem ofLine?_eq (reading : Reading text) : ofLine? text = some reading.parts := by
  simp only [ofLine?, reading.afterAt_eq, Option.bind_eq_bind, Option.bind_some,
    reading.splitNumbers_eq, reading.isDescription, ↓reduceIte, parts]
  cases splitProcedure reading.description <;> rfl

/-- A text has at most one reading. Witness: both ends of the reader are functions of the text,
and the blanks and the closing are what is left over.
-/
theorem unique (first second : Reading text) : first = second := by
  have rest : first.description ++ first.tail = second.description ++ second.tail :=
    Option.some.inj (first.afterAt_eq.symm.trans second.afterAt_eq)
  have split := first.splitNumbers_eq
  rw [rest, second.splitNumbers_eq] at split
  simp only [Option.some.injEq, Prod.mk.injEq] at split
  obtain ⟨description, line, column⟩ := split
  have tails : first.tail = second.tail := by
    rw [description] at rest
    exact List.append_cancel_left rest
  have closing : first.closing = second.closing := by
    simpa [tail, line, column] using tails
  have blanks : first.blanks = second.blanks := by
    have joined := first.eq_append_tail.symm.trans second.eq_append_tail
    rw [rest] at joined
    exact List.append_cancel_right joined
  cases first
  cases second
  simp_all

end Reading

/-- What the reader finds at both ends of a text makes a reading of it. -/
theorem nonempty_reading {text rest description line column : List Char}
    (after : afterAt text = some rest)
    (split : splitNumbers rest = some (description, line, column))
    (described : isDescription description = true)
    : Nonempty (Reading text) := by
  obtain ⟨blanks, blank, front⟩ := afterAt_eq_some_iff.mp after
  obtain ⟨_, ⟨lineRun, columnRun, closing, closes, rfl⟩, rfl⟩ := splitNumbers_eq_some_iff.mp split
  obtain ⟨nonempty, oneLine⟩ := isDescription_iff.mp described
  exact ⟨{
    blanks, description, line, column, closing, blank, oneLine, lineRun, columnRun, closes
    described := nonempty
    joined := by simp [front]
  }⟩

/-- The reader takes apart the texts that have a reading, and no others. -/
theorem ofLine?_eq_none_iff {text : List Char}
    : ofLine? text = none ↔ ¬ Nonempty (Reading text) := by
  constructor
  · rintro none ⟨reading⟩
    rw [reading.ofLine?_eq] at none
    cases none
  · intro unread
    refine Option.eq_none_iff_forall_not_mem.mpr ?_
    intro parts found
    simp only [ofLine?, Option.mem_def, Option.bind_eq_bind, Option.bind_eq_some_iff,
      Prod.exists] at found
    obtain ⟨rest, after, description, line, column, split, found⟩ := found
    by_cases described : isDescription description = true
    · exact unread (nonempty_reading after split described)
    · simp [described] at found

end CompilerReports.FrameLine
