import CompilerReports.Proofs.Frame.Grammar
import CompilerReports.Proofs.Text.Pattern

/-! Frame lines by a pattern that is tried with backtracking. The parts of the pattern can share a
line out among themselves in many ways, but only the procedure name leaves a choice: all else is
fixed by the one reading of the line. The shortest name that leads to a match comes first, and
that is the one at the first cut of the description.
-/

namespace CompilerReports

namespace FrameLine

open Text

-----------------------------------------------------------------------------------------
-- The pattern
-----------------------------------------------------------------------------------------

/-- (staysOnLine c) holds of the characters that names and files are made of. -/
def staysOnLine (c : Char) : Bool := !isLineTerminator c

/-- A procedure name and what marks its end. -/
def namePattern : Pattern (List Char) := do
  let name ← Pattern.shortestSome staysOnLine
  Pattern.exactly [' ', '(']
  return name

/-- The line and the column, up to the end of the text. -/
def numbersPattern : Pattern (List Char × List Char) := do
  Pattern.exactly [':']
  let line ← Pattern.longestSome Char.isDigit
  Pattern.exactly [':']
  let column ← Pattern.longestSome Char.isDigit
  let _ ← Pattern.optional (Pattern.exactly [')'])
  Pattern.ending
  return (line, column)

/-- A file and its numbers, behind a procedure name if there is one. -/
def filePattern (procedure : Option (List Char)) : Pattern FrameLine := do
  let file ← Pattern.shortestSome staysOnLine
  let (line, column) ← numbersPattern
  return { procedure, file, line, column }

/-- A whole frame line. -/
def pattern : Pattern FrameLine := do
  let _ ← Pattern.longest isBlank
  Pattern.exactly ['a', 't', ' ']
  let procedure ← Pattern.optional namePattern
  filePattern procedure

-----------------------------------------------------------------------------------------
-- What the parts match
-----------------------------------------------------------------------------------------

theorem isDescription_iff_staysOnLine {text : List Char}
    : isDescription text = true ↔ text ≠ [] ∧ ∀ c ∈ text, staysOnLine c = true := by
  simp [isDescription_iff, staysOnLine]

theorem mem_namePattern_iff {text left name : List Char}
    : (name, left) ∈ namePattern text
      ↔ text = name ++ ' ' :: '(' :: left ∧ name ≠ [] ∧ ∀ c ∈ name, staysOnLine c = true := by
  simp only [namePattern, Pattern.mem_bind_iff, Pattern.mem_shortestSome_iff,
    Pattern.mem_exactly_iff, Pattern.mem_pure_iff]
  constructor
  · intro parts
    obtain ⟨_, _, ⟨rfl, described⟩, _, _, rfl, rfl, rfl⟩ := parts
    exact ⟨rfl, described⟩
  · intro parts
    obtain ⟨rfl, described⟩ := parts
    exact ⟨name, _, ⟨rfl, described⟩, (), left, rfl, rfl, rfl⟩

theorem mem_numbersPattern_iff {text left line column : List Char}
    : ((line, column), left) ∈ numbersPattern text ↔ Numbered text line column ∧ left = [] := by
  simp only [numbersPattern, Pattern.mem_bind_iff, Pattern.mem_exactly_iff,
    Pattern.mem_longestSome_iff, Pattern.mem_optional_iff, Pattern.mem_ending_iff,
    Pattern.mem_pure_iff, Prod.mk.injEq]
  constructor
  · intro parts
    obtain ⟨_, _, rfl, _, _, ⟨rfl, lineSome, lineDigits⟩, _, _, rfl, _, closing,
      ⟨rfl, columnSome, columnDigits⟩, _, _, closes, _, _, ⟨rfl, rfl⟩, ⟨rfl, rfl⟩, rfl⟩ := parts
    refine ⟨⟨⟨lineSome, lineDigits⟩, ⟨columnSome, columnDigits⟩, closing, ?_, rfl⟩, rfl⟩
    rcases closes with ⟨_, _, rfl⟩ | ⟨_, rfl⟩
    · exact Or.inr rfl
    · exact Or.inl rfl
  · intro parts
    obtain ⟨⟨⟨lineSome, lineDigits⟩, ⟨columnSome, columnDigits⟩, closing, closes, rfl⟩, rfl⟩ := parts
    refine ⟨(), _, rfl, line, _, ⟨rfl, lineSome, lineDigits⟩, (), _, rfl, column, closing,
      ⟨rfl, columnSome, columnDigits⟩, ?_⟩
    rcases closes with rfl | rfl
    · exact ⟨none, [], Or.inr ⟨rfl, rfl⟩, (), [], ⟨rfl, rfl⟩, ⟨rfl, rfl⟩, rfl⟩
    · exact ⟨some (), [], Or.inl ⟨(), rfl, rfl⟩, (), [], ⟨rfl, rfl⟩, ⟨rfl, rfl⟩, rfl⟩

/-- The file pattern matches in one way at most, since the numbers do. -/
theorem mem_filePattern_iff {procedure : Option (List Char)} {text left : List Char}
    {parts : FrameLine}
    : (parts, left) ∈ filePattern procedure text
      ↔ parts.procedure = procedure ∧ isDescription parts.file = true
        ∧ splitNumbers text = some (parts.file, parts.line, parts.column) ∧ left = [] := by
  simp only [filePattern, Pattern.mem_bind_iff, Pattern.mem_shortestSome_iff, Prod.exists,
    mem_numbersPattern_iff, Pattern.mem_pure_iff, splitNumbers_eq_some_iff, isDescription_iff_staysOnLine]
  constructor
  · intro found
    obtain ⟨file, _, ⟨rfl, described⟩, line, column, _, ⟨numbered, rfl⟩, rfl, rfl⟩ := found
    exact ⟨rfl, described, ⟨_, numbered, rfl⟩, rfl⟩
  · intro found
    obtain ⟨rfl, described, ⟨tail, numbered, rfl⟩, rfl⟩ := found
    exact ⟨parts.file, tail, ⟨rfl, described⟩, parts.line, parts.column, [], ⟨numbered, rfl⟩,
      rfl, rfl⟩

theorem first_filePattern {procedure : Option (List Char)} {text : List Char} {parts : FrameLine}
    (named : parts.procedure = procedure) (described : isDescription parts.file = true)
    (split : splitNumbers text = some (parts.file, parts.line, parts.column))
    : (filePattern procedure).first text = some parts := by
  refine Pattern.first_of_only (mem_filePattern_iff.mpr ⟨named, described, split, rfl⟩) ?_
  intro other left member
  obtain ⟨otherNamed, _, otherSplit, _⟩ := mem_filePattern_iff.mp member
  rw [split] at otherSplit
  cases other
  cases parts
  simp_all

theorem exists_of_first_filePattern {procedure : Option (List Char)} {text : List Char}
    (goesOn : (filePattern procedure).first text ≠ none)
    : ∃ file line column,
        isDescription file = true ∧ splitNumbers text = some (file, line, column) := by
  obtain ⟨parts, found⟩ := Option.ne_none_iff_exists'.mp goesOn
  obtain ⟨left, member⟩ := Pattern.exists_mem_of_first found
  obtain ⟨_, described, split, _⟩ := mem_filePattern_iff.mp member
  exact ⟨parts.file, parts.line, parts.column, described, split⟩

-----------------------------------------------------------------------------------------
-- The first match
-----------------------------------------------------------------------------------------

namespace Reading

variable {text : List Char}

/-- A procedure name leads to a match only where the description of the reading is cut. Witness:
the numbers behind the file are those of the reading, so the name, the mark and the file make up
the description.
-/
theorem cutsAt_of_goesOn (reading : Reading text) {name left : List Char}
    (taken : (name, left)
      ∈ Pattern.shortestSome staysOnLine (reading.description ++ reading.tail))
    (goesOn : (Pattern.exactly [' ', '('] >>= fun _ => filePattern (some name)).first left ≠ none)
    : CutsAt reading.description name.length := by
  obtain ⟨whole, named, _⟩ := Pattern.mem_shortestSome_iff.mp taken
  obtain ⟨_, rest, marked, fileGoesOn⟩ := Pattern.exists_of_first_bind goesOn
  obtain rfl := Pattern.mem_exactly_iff.mp marked
  obtain ⟨file, line, column, described, split⟩ := exists_of_first_filePattern fileGoesOn
  obtain ⟨tail, numbered, rfl⟩ := splitNumbers_eq_some_iff.mp split
  have other : splitNumbers (reading.description ++ reading.tail)
      = some (name ++ ' ' :: '(' :: file, line, column) :=
    splitNumbers_eq_some_iff.mpr ⟨tail, numbered, by simp [whole]⟩
  rw [reading.splitNumbers_eq] at other
  obtain ⟨description, _⟩ := Prod.mk.inj (Option.some.inj other)
  rw [description]
  exact cutsAt_append named (isDescription_iff.mp described).1

/-- The name before the first cut is the one that is found, since a shorter name would be a cut
before it.
-/
theorem first_named (reading : Reading text) {k : Nat} (first : FirstCut reading.description k)
    : (namePattern >>= fun name => filePattern (some name)).first
        (reading.description ++ reading.tail)
      = some {
          procedure := some (reading.description.take k)
          file := reading.description.drop (k + 2)
          line := reading.line
          column := reading.column } := by
  let left := [' ', '('] ++ (reading.description.drop (k + 2) ++ reading.tail)
  have parted : reading.description ++ reading.tail = reading.description.take k ++ left := by
    rw [← List.append_assoc, ← List.append_assoc]
    exact congrArg (· ++ reading.tail) (by simp [first.cuts.eq_append])
  have fits := (isDescription_iff_staysOnLine.mp reading.isDescription).2
  have taken : (reading.description.take k, left)
      ∈ Pattern.shortestSome staysOnLine (reading.description ++ reading.tail) :=
    Pattern.mem_shortestSome_iff.mpr
      ⟨parted, first.cuts.take_ne_nil, fun c member => fits c (List.mem_of_mem_take member)⟩
  have described : FrameLine.isDescription (reading.description.drop (k + 2)) = true :=
    isDescription_iff_staysOnLine.mpr
      ⟨first.cuts.drop_ne_nil, fun c member => fits c (List.mem_of_mem_drop member)⟩
  have split : splitNumbers (reading.description.drop (k + 2) ++ reading.tail)
      = some (reading.description.drop (k + 2), reading.line, reading.column) :=
    splitNumbers_eq_some_iff.mpr ⟨reading.tail, reading.numbered, rfl⟩
  simp only [namePattern, bind_assoc, pure_bind]
  refine Pattern.first_shortestSome_bind taken ?_ ?_
  · rw [Pattern.first_exactly_bind]
    exact first_filePattern rfl described split
  · intro shorter between member below
    refine Classical.byContradiction fun goesOn => ?_
    rw [first.cuts.length_take] at below
    exact first.least shorter.length below (reading.cutsAt_of_goesOn member goesOn)

/-- Without a cut no procedure name leads to a match. -/
theorem first_named_of_uncut (reading : Reading text)
    (uncut : ∀ k, ¬ CutsAt reading.description k)
    : (namePattern >>= fun name => filePattern (some name)).first
        (reading.description ++ reading.tail)
      = none := by
  simp only [namePattern, bind_assoc, pure_bind]
  refine Classical.byContradiction fun goesOn => ?_
  obtain ⟨name, left, member, goesOn⟩ := Pattern.exists_of_first_bind goesOn
  exact uncut name.length (reading.cutsAt_of_goesOn member goesOn)

/-- Behind the word `at` the parts of the reading are found first. -/
theorem first_body (reading : Reading text)
    : (Pattern.optional namePattern >>= filePattern).first
        (reading.description ++ reading.tail)
      = some reading.parts := by
  rw [Pattern.first_optional_bind]
  rcases exists_firstCut_or_uncut reading.description with ⟨k, first⟩ | uncut
  · rw [reading.first_named first, reading.parts_of_firstCut first]
    rfl
  · rw [reading.first_named_of_uncut uncut, reading.parts_of_uncut uncut, Option.none_or]
    exact first_filePattern rfl reading.isDescription reading.splitNumbers_eq

/-- The parts of a reading are what the pattern finds first in the text. -/
theorem first_pattern (reading : Reading text) : pattern.first text = some reading.parts := by
  have taken : (reading.blanks, ['a', 't', ' '] ++ (reading.description ++ reading.tail))
      ∈ Pattern.longest isBlank text :=
    Pattern.mem_longest_iff.mpr ⟨reading.eq_append_tail, reading.blank⟩
  refine Pattern.first_bind_of_only taken ?_ ?_
  · rw [Pattern.first_exactly_bind]
    exact reading.first_body
  · intro blanks left member goesOn
    obtain ⟨whole, blank⟩ := Pattern.mem_longest_iff.mp member
    obtain ⟨_, rest, word, _⟩ := Pattern.exists_of_first_bind goesOn
    obtain rfl := Pattern.mem_exactly_iff.mp word
    have after : afterAt text = some rest := afterAt_eq_some_iff.mpr ⟨blanks, blank, whole⟩
    obtain rfl : reading.description ++ reading.tail = rest :=
      Option.some.inj (reading.afterAt_eq.symm.trans after)
    refine ⟨?_, rfl⟩
    have parted := reading.eq_append_tail
    exact List.append_cancel_right (whole.symm.trans parted)

end Reading

theorem nonempty_reading_of_first {text : List Char} (matched : pattern.first text ≠ none)
    : Nonempty (Reading text) := by
  obtain ⟨blanks, _, front, atGoesOn⟩ := Pattern.exists_of_first_bind matched
  obtain ⟨whole, blank⟩ := Pattern.mem_longest_iff.mp front
  obtain ⟨_, rest, word, nameGoesOn⟩ := Pattern.exists_of_first_bind atGoesOn
  obtain rfl := Pattern.mem_exactly_iff.mp word
  have after : afterAt text = some rest := afterAt_eq_some_iff.mpr ⟨blanks, blank, whole⟩
  obtain ⟨procedure, left, named, fileGoesOn⟩ := Pattern.exists_of_first_bind nameGoesOn
  obtain ⟨file, line, column, described, split⟩ := exists_of_first_filePattern fileGoesOn
  rcases Pattern.mem_optional_iff.mp named with ⟨name, _, marked⟩ | ⟨_, rfl⟩
  · obtain ⟨rfl, nameSome, nameFits⟩ := mem_namePattern_iff.mp marked
    obtain ⟨tail, numbered, rfl⟩ := splitNumbers_eq_some_iff.mp split
    have wider : splitNumbers (name ++ ' ' :: '(' :: (file ++ tail))
        = some (name ++ ' ' :: '(' :: file, line, column) :=
      splitNumbers_eq_some_iff.mpr ⟨tail, numbered, by simp⟩
    refine nonempty_reading after wider ?_
    obtain ⟨_, fileFits⟩ := isDescription_iff_staysOnLine.mp described
    refine isDescription_iff_staysOnLine.mpr ⟨by simp, ?_⟩
    refine List.forall_mem_append.mpr ⟨nameFits, ?_⟩
    refine List.forall_mem_cons.mpr ⟨by decide, ?_⟩
    exact List.forall_mem_cons.mpr ⟨by decide, fileFits⟩
  · exact nonempty_reading after split described

/-- The reader finds what a search through the pattern with backtracking finds first. -/
theorem first_pattern_eq_ofLine? (text : List Char) : pattern.first text = ofLine? text := by
  by_cases read : Nonempty (Reading text)
  · obtain ⟨reading⟩ := read
    rw [reading.first_pattern, reading.ofLine?_eq]
  · rw [ofLine?_eq_none_iff.mpr read]
    exact Classical.byContradiction fun matched => read (nonempty_reading_of_first matched)

end FrameLine

-----------------------------------------------------------------------------------------
-- The frames of one line
-----------------------------------------------------------------------------------------

/-- A stack of one line has the frames of that line. -/
theorem framesOf_of_line {text : String} (single : '\n' ∉ text.toList)
    : framesOf text = (FrameLine.ofLine? text.toList).toList.mapM Frame.ofFrameLine := by
  have unmarked : ∀ c ∈ text.toList, (c == '\n') = false := by
    intro c member
    exact beq_eq_false_iff_ne.mpr fun same => single (same ▸ member)
  rw [framesOf, Text.lines, Text.pieces_of_unmarked unmarked]
  cases found : FrameLine.ofLine? text.toList <;> simp [found]

/-- A line with a reading is one frame, if the file that it names has a path. -/
theorem framesOf_of_reading {text : String} (single : '\n' ∉ text.toList)
    (reading : FrameLine.Reading text.toList)
    : framesOf text
      = (FileUrl.fileOf reading.parts.file).map fun file => [{
          procedure := (reading.parts.procedure.map String.ofList).getD Frame.anonymous
          file
          line := Frame.numberOf reading.parts.line
          column := Frame.numberOf reading.parts.column }] := by
  rw [framesOf_of_line single, reading.ofLine?_eq, Option.toList_some, List.mapM_cons,
    List.mapM_nil, Frame.ofFrameLine]
  cases FileUrl.fileOf reading.parts.file <;> rfl

theorem framesOf_ne_nil_of_reading {text : String} (single : '\n' ∉ text.toList)
    (reading : FrameLine.Reading text.toList)
    : framesOf text ≠ .ok [] := by
  rw [framesOf_of_reading single reading]
  cases FileUrl.fileOf reading.parts.file <;> simp [Except.map]

/-- One line gives a frame, or the error of its file, exactly when it has a reading, and then it
has no other. The first cut of the description decides what is the procedure and what is the
file; without a cut the description is the file of a procedure without a name. These are the
parts that a search through the pattern with backtracking finds first.
-/
theorem framesOf_single_line {text : String} (single : '\n' ∉ text.toList)
    : (∀ first second : FrameLine.Reading text.toList, first = second)
      ∧ (framesOf text ≠ .ok [] ↔ Nonempty (FrameLine.Reading text.toList))
      ∧ (∀ reading : FrameLine.Reading text.toList,
          (∀ k,
            FrameLine.FirstCut reading.description k
            → framesOf text
              = (FileUrl.fileOf (reading.description.drop (k + 2))).map fun file => [{
                  procedure := String.ofList (reading.description.take k)
                  file
                  line := Frame.numberOf reading.line
                  column := Frame.numberOf reading.column }])
          ∧ ((∀ k, ¬ FrameLine.CutsAt reading.description k)
            → framesOf text
              = (FileUrl.fileOf reading.description).map fun file => [{
                  procedure := "<anonymous>"
                  file
                  line := Frame.numberOf reading.line
                  column := Frame.numberOf reading.column }]))
      ∧ framesOf text
        = (FrameLine.pattern.first text.toList).toList.mapM Frame.ofFrameLine := by
  refine ⟨FrameLine.Reading.unique, ⟨?_, ?_⟩, ?_, ?_⟩
  · intro framed
    refine Classical.byContradiction fun unread => framed ?_
    rw [framesOf_of_line single, FrameLine.ofLine?_eq_none_iff.mpr unread]
    rfl
  · intro read
    obtain ⟨reading⟩ := read
    exact framesOf_ne_nil_of_reading single reading
  · intro reading
    constructor
    · intro k first
      rw [framesOf_of_reading single reading, reading.parts_of_firstCut first]
      rfl
    · intro uncut
      rw [framesOf_of_reading single reading, reading.parts_of_uncut uncut]
      rfl
  · rw [FrameLine.first_pattern_eq_ofLine?, framesOf_of_line single]

/-- A file may look like a procedure with a file of its own: only the first cut counts. -/
theorem framesOf_single_line_two_cuts
    : framesOf "  at a (b) (c.ts:10:2)"
      = .ok [{
          procedure := "a"
          file := "b) (c.ts"
          line := Frame.numberOf ['1', '0']
          column := Frame.numberOf ['2'] }] := by
  have single : '\n' ∉ "  at a (b) (c.ts:10:2)".toList := by decide
  let reading : FrameLine.Reading "  at a (b) (c.ts:10:2)".toList := {
    blanks := [' ', ' ']
    description := "a (b) (c.ts".toList
    line := ['1', '0']
    column := ['2']
    closing := [')']
    blank := List.all_eq_true.mp rfl
    described := (FrameLine.isDescription_iff.mp rfl).1
    oneLine := (FrameLine.isDescription_iff.mp rfl).2
    lineRun := ⟨List.cons_ne_nil _ _, List.all_eq_true.mp rfl⟩
    columnRun := ⟨List.cons_ne_nil _ _, List.all_eq_true.mp rfl⟩
    closes := Or.inr rfl
    joined := by decide
  }
  have first : FrameLine.FirstCut reading.description 1 := by
    refine ⟨⟨Nat.le_refl 1, by decide, by decide⟩, ?_⟩
    intro j below cuts
    have named := cuts.named
    omega
  exact ((framesOf_single_line single).2.2.1 reading).1 1 first

end CompilerReports
