import CompilerReports.Proofs.Frame.FirstMatch
import CompilerReports.Proofs.Text.Pieces

/-! Stack texts are read line by line. What a line gives turns on that line alone: nothing where it
does not match the frame pattern, a frame where it does, or an error where its file URL names no
path. The frames of a text are those of its lines in order, and of several errors the first line's
counts; so texts can be joined and cut at line feeds, and lines that are no frames never matter.
-/

namespace CompilerReports

-----------------------------------------------------------------------------------------
-- Single lines
-----------------------------------------------------------------------------------------

/-- Only a file URL can have no file. -/
theorem FileUrl.fileOf_eq_error_iff {file : List Char} {error : FileUrl.Error}
    : fileOf file = .error error
      ↔ start <+: file ∧ path file = .error error := by
  rw [← List.isPrefixOf_iff_prefix, fileOf, isFileUrl]
  split
  case isTrue url => exact (and_iff_right url).symm
  case isFalse other =>
    constructor
    · intro failed
      cases failed
    · intro failed
      exact absurd failed.1 other

namespace FrameLine

/-- (Matches line) holds of the lines that the frame pattern matches. -/
def Matches (line : List Char) : Prop := (pattern.first line).isSome

instance (line : List Char) : Decidable (Matches line) :=
  inferInstanceAs (Decidable ((pattern.first line).isSome = true))

/-- (Fails line error) holds of the lines that the frame pattern matches with a file URL that names
no path, for the reason of the error.
-/
def Fails (line : List Char) (error : FileUrl.Error) : Prop :=
  ∃ parts,
    pattern.first line = some parts
    ∧ FileUrl.start <+: parts.file
    ∧ FileUrl.path parts.file = .error error

/-- A line fails where its parts make up no frame. -/
theorem fails_iff {line : List Char} {error : FileUrl.Error}
    : Fails line error
      ↔ ∃ parts, ofLine? line = some parts ∧ Frame.ofFrameLine parts = .error error := by
  simp only [Fails, first_pattern_eq_ofLine?, ← FileUrl.fileOf_eq_error_iff]
  refine exists_congr fun parts => and_congr_right fun _ => ?_
  rw [Frame.ofFrameLine]
  cases FileUrl.fileOf parts.file <;> simp [bind, Except.bind, pure, Except.pure]

theorem Fails.unique {line : List Char} {error other : FileUrl.Error}
    (fails : Fails line error) (failsToo : Fails line other)
    : error = other := by
  obtain ⟨parts, read, _, found⟩ := fails
  obtain ⟨twin, readToo, _, foundToo⟩ := failsToo
  obtain rfl : parts = twin := Option.some.inj (read.symm.trans readToo)
  exact Except.error.inj (found.symm.trans foundToo)

end FrameLine

-----------------------------------------------------------------------------------------
-- Several lines
-----------------------------------------------------------------------------------------

/-- The frames of some lines, in order, unless the file URL of one names no path. -/
def framesOfLines (lines : List (List Char)) : Except FileUrl.Error (List Frame) :=
  (lines.filterMap FrameLine.ofLine?).mapM Frame.ofFrameLine

theorem framesOfLines_append (lines more : List (List Char))
    : framesOfLines (lines ++ more) = do
        let frames ← framesOfLines lines
        let others ← framesOfLines more
        return frames ++ others := by
  rw [framesOfLines, List.filterMap_append, List.mapM_append]
  rfl

/-- Lines that the pattern does not match can be left out. -/
theorem framesOfLines_filter (lines : List (List Char))
    : framesOfLines (lines.filter FrameLine.Matches) = framesOfLines lines := by
  have read : (fun line => if FrameLine.Matches line then FrameLine.ofLine? line else none)
      = FrameLine.ofLine? := by
    funext line
    simp only [FrameLine.Matches, FrameLine.first_pattern_eq_ofLine?]
    cases FrameLine.ofLine? line <;> rfl
  simp only [framesOfLines, List.filterMap_filter, decide_eq_true_eq, read]

/-- A line fails, or gives its frames whatever follows: none, or the one that it describes. -/
theorem fails_or_framesOfLines_cons (line : List Char)
    : (∃ error,
        FrameLine.Fails line error ∧ ∀ rest, framesOfLines (line :: rest) = .error error)
      ∨ (∀ error, ¬ FrameLine.Fails line error)
        ∧ ∃ frames,
            ∀ rest, framesOfLines (line :: rest) = (framesOfLines rest).map (frames ++ ·) := by
  simp only [FrameLine.fails_iff]
  cases read : FrameLine.ofLine? line with
  | none =>
      refine Or.inr ⟨by simp, [], fun rest => ?_⟩
      rw [framesOfLines, List.filterMap_cons_none read, ← framesOfLines]
      cases framesOfLines rest <;> rfl
  | some parts =>
      have first (rest : List (List Char)) : framesOfLines (line :: rest) = do
          let frame ← Frame.ofFrameLine parts
          let others ← framesOfLines rest
          return frame :: others := by
        rw [framesOfLines, List.filterMap_cons_some read, List.mapM_cons]
        rfl
      cases made : Frame.ofFrameLine parts with
      | error error =>
          refine Or.inl ⟨error, ⟨parts, rfl, made⟩, fun rest => ?_⟩
          rw [first, made]
          rfl
      | ok frame =>
          refine Or.inr ⟨?_, [frame], fun rest => ?_⟩
          · rintro error ⟨_, ⟨⟩, failed⟩
            rw [made] at failed
            cases failed
          · rw [first, made]
            cases framesOfLines rest <;> rfl

/-- Lines fail where one of them does, for the reason of the first such line, by induction on the
lines.
-/
theorem framesOfLines_eq_error_iff {lines : List (List Char)} {error : FileUrl.Error}
    : framesOfLines lines = .error error
      ↔ ∃ before line after,
          lines = before ++ line :: after
          ∧ (∀ earlier ∈ before, ∀ other, ¬ FrameLine.Fails earlier other)
          ∧ FrameLine.Fails line error := by
  induction lines with
  | nil =>
      constructor
      · intro failed
        cases failed
      · rintro ⟨before, line, after, none, _⟩
        cases before <;> cases none
  | cons line rest ih =>
      rcases fails_or_framesOfLines_cons line with ⟨fault, fails, shown⟩ | ⟨passes, frames, shown⟩
      · rw [shown]
        constructor
        · rintro ⟨⟩
          exact ⟨[], line, rest, rfl, List.forall_mem_nil _, fails⟩
        · rintro ⟨before, first, after, split, spared, failsFirst⟩
          cases before with
          | nil =>
              cases split
              exact congrArg _ (fails.unique failsFirst)
          | cons earlier more =>
              cases split
              exact absurd fails (spared line List.mem_cons_self fault)
      · have passed : (framesOfLines rest).map (frames ++ ·) = .error error
            ↔ framesOfLines rest = .error error := by
          cases framesOfLines rest <;> simp [Except.map]
        rw [shown, passed, ih]
        constructor
        · rintro ⟨before, first, after, rfl, spared, fails⟩
          exact ⟨line :: before, first, after, rfl, List.forall_mem_cons.mpr ⟨passes, spared⟩,
            fails⟩
        · rintro ⟨before, first, after, split, spared, fails⟩
          cases before with
          | nil =>
              cases split
              exact absurd fails (passes error)
          | cons earlier more =>
              cases split
              exact ⟨more, first, after, rfl, (List.forall_mem_cons.mp spared).2, fails⟩

-----------------------------------------------------------------------------------------
-- Whole texts
-----------------------------------------------------------------------------------------

/-- The frames of a text are those of the lines that it consists of. -/
theorem framesOf_eq_framesOfLines {lines : List (List Char)} {stack : String}
    (made : Text.AreLines lines stack.toList)
    : framesOf stack = framesOfLines lines := by
  rw [← Text.areLines_iff.mp made]
  rfl

/-- Texts that a line feed joins consist of the lines of the one and of the other. -/
theorem areLines_append_lineFeed (first second : String)
    : Text.AreLines (Text.lines first.toList ++ Text.lines second.toList)
        (first ++ "\n" ++ second).toList := by
  have joined : (first ++ "\n" ++ second).toList = first.toList ++ '\n' :: second.toList := by
    simp
  rw [joined, Text.areLines_iff]
  exact Text.pieces_append_cons rfl _ _

theorem areLines_lines (stack : String)
    : Text.AreLines (Text.lines stack.toList) stack.toList :=
  Text.areLines_iff.mpr rfl

/-- A site can be told where all frames can, though only the first frame is shown. -/
theorem siteOf_eq_framesOf (stack : Option String)
    : siteOf stack
      = (framesOf (stack.getD "")).map fun frames =>
          (frames.head?.map Frame.point).getD .unknown := by
  rw [siteOf]
  cases framesOf (stack.getD "") <;> rfl

/-- Stack texts are read line by line, and the first error counts. Texts that a line feed joins have
the frames of the one and then of the other; if the first fails, its error, and else the error of
the second. Every text consists of lines. It fails where a line matches the frame pattern with a
file URL that names no path, for the reason of the first such line. Texts with the same matching
lines in the same order come to the same, whatever other lines stand between them. And the site of
a text fails where the text does, though it is the point of the first frame alone.
-/
theorem framesOf_line_by_line
    : (∀ first second : String,
        let joined := framesOf (first ++ "\n" ++ second)
        (∀ frames others,
          framesOf first = .ok frames
          → framesOf second = .ok others
          → joined = .ok (frames ++ others))
        ∧ (∀ error, framesOf first = .error error → joined = .error error)
        ∧ (∀ frames error,
            framesOf first = .ok frames
            → framesOf second = .error error
            → joined = .error error))
      ∧ (∀ stack : String, ∃ lines, Text.AreLines lines stack.toList)
      ∧ (∀ (stack : String) lines error,
          Text.AreLines lines stack.toList
          → (framesOf stack = .error error
            ↔ ∃ before line after,
                lines = before ++ line :: after
                ∧ (∀ earlier ∈ before, ∀ other, ¬ FrameLine.Fails earlier other)
                ∧ FrameLine.Fails line error))
      ∧ (∀ (stack other : String) lines others,
          Text.AreLines lines stack.toList
          → Text.AreLines others other.toList
          → lines.filter FrameLine.Matches = others.filter FrameLine.Matches
          → framesOf stack = framesOf other ∧ siteOf (some stack) = siteOf (some other))
      ∧ ∀ stack : String,
          (∀ error, siteOf (some stack) = .error error ↔ framesOf stack = .error error)
          ∧ (∀ first rest,
              framesOf stack = .ok (first :: rest) → siteOf (some stack) = .ok first.point)
          ∧ (framesOf stack = .ok [] → siteOf (some stack) = .ok .unknown) := by
  refine ⟨?_, ?_, ?_, ?_, ?_⟩
  · intro first second joined
    have parts : joined = do
        let frames ← framesOf first
        let others ← framesOf second
        return frames ++ others := by
      rw [framesOf_eq_framesOfLines (areLines_lines first),
        framesOf_eq_framesOfLines (areLines_lines second), ← framesOfLines_append]
      exact framesOf_eq_framesOfLines (areLines_append_lineFeed first second)
    refine ⟨?_, ?_, ?_⟩
    · intro frames others read readToo
      rw [parts, read, readToo]
      rfl
    · intro error failed
      rw [parts, failed]
      rfl
    · intro frames error read failed
      rw [parts, read, failed]
      rfl
  · exact fun stack => ⟨_, areLines_lines stack⟩
  · intro stack lines error made
    rw [framesOf_eq_framesOfLines made]
    exact framesOfLines_eq_error_iff
  · intro stack other lines others made madeToo same
    have alike : framesOf stack = framesOf other := by
      rw [framesOf_eq_framesOfLines made, framesOf_eq_framesOfLines madeToo,
        ← framesOfLines_filter, same, framesOfLines_filter]
    refine ⟨alike, ?_⟩
    simp only [siteOf_eq_framesOf, Option.getD_some, alike]
  · intro stack
    simp only [siteOf_eq_framesOf, Option.getD_some]
    refine ⟨?_, ?_, ?_⟩
    · intro error
      cases framesOf stack <;> simp [Except.map]
    · intro first rest read
      rw [read]
      rfl
    · intro read
      rw [read]
      rfl

/-- The bad file URLs of two later lines: behind a line of text and a frame that can be read, the
first of them counts, for the site as well.
-/
theorem framesOf_line_by_line_later_bad_urls
    : let stack :=
        "Error: x\n    at f (a.ts:1:2)\n    at g (file:///%2F:3:4)\n    at h (file:///%zz:5:6)"
      framesOf stack = .error .encodedSlash ∧ siteOf (some stack) = .error .encodedSlash := by
  intro stack
  let before := ["Error: x".toList, "    at f (a.ts:1:2)".toList]
  let line := "    at g (file:///%2F:3:4)".toList
  let after := ["    at h (file:///%zz:5:6)".toList]
  have made : Text.AreLines (before ++ line :: after) stack.toList :=
    Text.areLines_iff.mpr (by decide +revert)
  have heading : ∀ error, ¬ FrameLine.Fails "Error: x".toList error := by
    rintro error ⟨parts, read, _⟩
    cases read
  have frame : ∀ error, ¬ FrameLine.Fails "    at f (a.ts:1:2)".toList error := by
    rintro error ⟨parts, read, start, _⟩
    cases read
    exact absurd start (by decide)
  have spared : ∀ earlier ∈ before, ∀ error, ¬ FrameLine.Fails earlier error :=
    List.forall_mem_cons.mpr ⟨heading, List.forall_mem_singleton.mpr frame⟩
  have bad : FrameLine.Fails line .encodedSlash := ⟨_, rfl, by decide +revert, rfl⟩
  have fails : framesOf stack = .error .encodedSlash :=
    (framesOf_line_by_line.2.2.1 stack _ .encodedSlash made).mpr
      ⟨before, line, after, rfl, spared, bad⟩
  exact ⟨fails, ((framesOf_line_by_line.2.2.2.2 stack).1 .encodedSlash).mpr fails⟩

end CompilerReports
