import CompilerReports.Proofs.Binary64.Whole
import CompilerReports.Proofs.Frame.FirstMatch
import CompilerReports.Proofs.Text.Pieces

/-! Frames printed and read back. A printed frame line is taken apart into the parts that it was
printed from, whatever colons, digits and parentheses they hold, and a stack of printed frames is
read as those frames in their order, whatever other lines stand between them.
-/

namespace CompilerReports

-----------------------------------------------------------------------------------------
-- Frame lines
-----------------------------------------------------------------------------------------

namespace FrameLine

/-- What a frame line says between the word `at` and its numbers. -/
def description (parts : FrameLine) : List Char :=
  match parts.procedure with
  | some name => name ++ ' ' :: '(' :: parts.file
  | none => parts.file

/-- What closes a frame line: the parenthesis that was opened behind a procedure name. -/
def closing (parts : FrameLine) : List Char :=
  match parts.procedure with
  | some _ => [')']
  | none => []

/-- The text of a frame line behind the given blanks. -/
def print (indent : List Char) (parts : FrameLine) : List Char :=
  indent ++ ['a', 't', ' '] ++ parts.description ++ [':'] ++ parts.line ++ [':'] ++ parts.column
    ++ parts.closing

/-- The parts can be told apart where they are printed: no line terminators, digits for numbers, and
no cut before the one that ends the procedure name.
-/
structure Printable (parts : FrameLine) : Prop where
  named : ∀ name, parts.procedure = some name → isDescription name = true
  uncutName : ∀ name, parts.procedure = some name → ¬ [' ', '('] <:+: name
  uncutFile : parts.procedure = none → ¬ [' ', '('] <:+: parts.file
  filed : isDescription parts.file = true
  lineRun : IsRun parts.line
  columnRun : IsRun parts.column

/-- A cut marks its place with a space and a parenthesis. -/
theorem CutsAt.infix {description : List Char} {k : Nat} (cuts : CutsAt description k)
    : [' ', '('] <:+: description :=
  ⟨description.take k, description.drop (k + 2), by
    rw [List.append_assoc]
    exact cuts.eq_append⟩

/-- A name that holds no cut of its own is what the first cut behind it cuts off. Witness: a cut
before that one would need both its marks within the name, or a parenthesis for the space that
follows the name.
-/
theorem firstCut_append {name file : List Char} (named : name ≠ []) (followed : file ≠ [])
    (uncut : ¬ [' ', '('] <:+: name)
    : FirstCut (name ++ ' ' :: '(' :: file) name.length := by
  refine ⟨cutsAt_append named followed, ?_⟩
  intro j before cuts
  have marked := cuts.marked
  rw [List.drop_append_of_le_length (Nat.le_of_lt before)] at marked
  have rest : (name.drop j).length = name.length - j := List.length_drop
  rcases held : name.drop j with _ | ⟨first, _ | ⟨second, more⟩⟩
  · rw [held] at rest
    simp only [List.length_nil] at rest
    omega
  · rw [held] at marked
    simp at marked
  · rw [held] at marked
    simp only [List.cons_append, List.take_succ_cons, List.take_zero, List.cons.injEq,
      and_true] at marked
    obtain ⟨rfl, rfl⟩ := marked
    refine uncut ⟨name.take j, more, ?_⟩
    rw [List.append_assoc, List.cons_append, List.cons_append, List.nil_append, ← held,
      List.take_append_drop]

namespace Printable

variable {parts : FrameLine}

theorem isDescription_description (printable : parts.Printable)
    : isDescription parts.description = true := by
  obtain ⟨fileGiven, fileLine⟩ := isDescription_iff.mp printable.filed
  unfold description
  split
  case h_1 name found =>
    obtain ⟨_, nameLine⟩ := isDescription_iff.mp (printable.named name found)
    refine isDescription_iff.mpr ⟨by simp, List.forall_mem_append.mpr ⟨nameLine, ?_⟩⟩
    exact List.forall_mem_cons.mpr ⟨by decide, List.forall_mem_cons.mpr ⟨by decide, fileLine⟩⟩
  case h_2 => exact printable.filed

/-- The reading of a printed frame line. -/
def reading (printable : parts.Printable) {indent : List Char}
    (blank : ∀ c ∈ indent, Text.isBlank c = true)
    : Reading (parts.print indent) where
  blanks := indent
  description := parts.description
  line := parts.line
  column := parts.column
  closing := parts.closing
  blank
  described := (isDescription_iff.mp printable.isDescription_description).1
  oneLine := (isDescription_iff.mp printable.isDescription_description).2
  lineRun := printable.lineRun
  columnRun := printable.columnRun
  closes := by
    unfold FrameLine.closing
    split
    · exact Or.inr rfl
    · exact Or.inl rfl
  joined := rfl

/-- A printed frame line is taken apart into the parts that it was printed from. -/
theorem ofLine?_print (printable : parts.Printable) {indent : List Char}
    (blank : ∀ c ∈ indent, Text.isBlank c = true)
    : ofLine? (parts.print indent) = some parts := by
  rw [(printable.reading blank).ofLine?_eq]
  obtain ⟨procedure, file, line, column⟩ := parts
  cases procedure with
  | some name =>
      have named := (isDescription_iff.mp (printable.named name rfl)).1
      have followed := (isDescription_iff.mp printable.filed).1
      have first : FirstCut (printable.reading blank).description name.length :=
        firstCut_append named followed (printable.uncutName name rfl)
      rw [Reading.parts_of_firstCut _ first]
      simp [reading, description]
  | none =>
      have uncut : ∀ k, ¬ CutsAt (printable.reading blank).description k :=
        fun k cuts => printable.uncutFile rfl cuts.infix
      rw [Reading.parts_of_uncut _ uncut]
      rfl

/-- A printed frame line holds no line feed, since none of its parts does. -/
theorem oneLine_print (printable : parts.Printable) {indent : List Char} (oneLine : '\n' ∉ indent)
    : '\n' ∉ parts.print indent := by
  have described : '\n' ∉ parts.description := by
    intro member
    have fits := (isDescription_iff.mp printable.isDescription_description).2
    exact absurd (fits '\n' member) (by decide)
  have digits {run : List Char} (isRun : IsRun run) : '\n' ∉ run :=
    fun member => absurd (isRun.digits '\n' member) (by decide)
  have closed : '\n' ∉ parts.closing := by
    unfold FrameLine.closing
    split <;> decide
  simp [print, oneLine, described, digits printable.lineRun, digits printable.columnRun, closed]

end Printable

end FrameLine

-----------------------------------------------------------------------------------------
-- Stacks
-----------------------------------------------------------------------------------------

/-- A frame to be printed: whole numbers that binary64 holds exactly, and a file that is no URL.
Where there is no procedure, nothing in the file may look like one.
-/
structure PlainFrame where
  indent : List Char
  procedure : Option (List Char)
  file : List Char
  line : Nat
  column : Nat
  blank : ∀ c ∈ indent, Text.isBlank c = true
  indentOneLine : '\n' ∉ indent
  named : ∀ name, procedure = some name → FrameLine.isDescription name = true
  uncutName : ∀ name, procedure = some name → ¬ [' ', '('] <:+: name
  uncutFile : procedure = none → ¬ [' ', '('] <:+: file
  filed : FrameLine.isDescription file = true
  noUrl : ¬ "file:///".toList <+: file
  lineExact : line ≤ Nat.pow 2 53
  columnExact : column ≤ Nat.pow 2 53

namespace PlainFrame

variable (plain : PlainFrame)

/-- The parts of the line of a frame: the numbers are written in decimal. -/
def parts : FrameLine where
  procedure := plain.procedure
  file := plain.file
  line := Nat.toDigits 10 plain.line
  column := Nat.toDigits 10 plain.column

def text : List Char := plain.parts.print plain.indent

/-- The frame itself. -/
def frame : Frame where
  procedure := match plain.procedure with
    | some name => String.ofList name
    | none => "<anonymous>"
  file := String.ofList plain.file
  line := .ofNat plain.line
  column := .ofNat plain.column

theorem isRun_toDigits (n : Nat)
    : FrameLine.IsRun (Nat.toDigits 10 n) :=
  ⟨Nat.toDigits_ne_nil, fun _ member => Nat.isDigit_of_mem_toDigits (by decide) (by decide) member⟩

theorem printable
    : plain.parts.Printable where
  named := plain.named
  uncutName := plain.uncutName
  uncutFile := plain.uncutFile
  filed := plain.filed
  lineRun := isRun_toDigits plain.line
  columnRun := isRun_toDigits plain.column

theorem fileOf_file
    : FileUrl.fileOf plain.file = .ok (String.ofList plain.file) := by
  have noUrl : FileUrl.isFileUrl plain.file = false :=
    Bool.eq_false_iff.mpr fun starts => plain.noUrl (List.isPrefixOf_iff_prefix.mp starts)
  simp only [FileUrl.fileOf, noUrl, Bool.false_eq_true, ↓reduceIte]

/-- The parts of a printed frame make up the frame again. -/
theorem ofFrameLine_parts
    : Frame.ofFrameLine plain.parts = .ok plain.frame := by
  have number (n : Nat) : Frame.numberOf (Nat.toDigits 10 n) = .ofNat n := by
    rw [Frame.numberOf, Nat.ofDigitChars_ten_toDigits]
  simp only [Frame.ofFrameLine, parts, frame, number, plain.fileOf_file]
  cases plain.procedure <;> rfl

theorem oneLine_text
    : '\n' ∉ plain.text :=
  plain.printable.oneLine_print plain.indentOneLine

end PlainFrame

/-- A line of a stack: a printed frame, or a line that the pattern of frame lines does not match. -/
inductive StackLine where
  | frame (plain : PlainFrame)
  | other (text : List Char) (oneLine : '\n' ∉ text)
      (unmatched : FrameLine.pattern.first text = none)

namespace StackLine

def text : StackLine → List Char
  | .frame plain => plain.text
  | .other text _ _ => text

def frame? : StackLine → Option Frame
  | .frame plain => some plain.frame
  | .other .. => none

/-- The lines of a stack in one text. -/
def stackText (stack : List StackLine) : String :=
  "\n".intercalate (stack.map fun line => String.ofList line.text)

theorem oneLine_text (line : StackLine)
    : '\n' ∉ line.text := by
  cases line with
  | frame plain => exact plain.oneLine_text
  | other text oneLine _ => exact oneLine

/-- The parts that are read from a line of a stack make up the frame of that line, if it has one. -/
theorem ofFrameLine_of_ofLine? (line : StackLine)
    : (FrameLine.ofLine? line.text).toList.mapM Frame.ofFrameLine = .ok line.frame?.toList := by
  cases line with
  | frame plain =>
      have read : FrameLine.ofLine? plain.text = some plain.parts :=
        plain.printable.ofLine?_print plain.blank
      rw [text, read, Option.toList_some, List.mapM_cons, plain.ofFrameLine_parts]
      rfl
  | other text _ unmatched =>
      rw [StackLine.text, ← FrameLine.first_pattern_eq_ofLine?, unmatched]
      rfl

/-- The lines of a stack are read one by one, by induction on them. -/
theorem mapM_ofFrameLine (stack : List StackLine)
    : ((stack.map text).filterMap FrameLine.ofLine?).mapM Frame.ofFrameLine
      = .ok (stack.filterMap frame?) := by
  induction stack with
  | nil => rfl
  | cons line rest ih =>
      have split : ((line :: rest).map text).filterMap FrameLine.ofLine?
          = (FrameLine.ofLine? line.text).toList
            ++ (rest.map text).filterMap FrameLine.ofLine? := by
        rw [List.map_cons, List.filterMap_cons]
        cases FrameLine.ofLine? line.text <;> rfl
      have joined : (line :: rest).filterMap frame?
          = line.frame?.toList ++ rest.filterMap frame? := by
        rw [List.filterMap_cons]
        cases line.frame? <;> rfl
      rw [split, joined, List.mapM_append, line.ofFrameLine_of_ofLine?, ih]
      rfl

/-- The text of a stack has the lines of the stack; without lines it is one empty line. -/
theorem lines_stackText (stack : List StackLine)
    : Text.lines (stackText stack).toList = if stack = [] then [[]] else stack.map text := by
  have joined : (stackText stack).toList = ['\n'].intercalate (stack.map text) := by
    simp [stackText, String.toList_intercalate, Function.comp_def]
  rw [joined]
  split
  case isTrue none =>
    rw [none]
    rfl
  case isFalse given =>
    refine Text.lines_intercalate (by simpa using given) ?_
    intro shown member
    obtain ⟨line, _, rfl⟩ := List.mem_map.mp member
    exact line.oneLine_text

end StackLine

/-- Printed frames are read back in their order, with the lines and columns that they were printed
with, whatever lines the pattern does not match stand before, between and after them. The site of
the stack is the point of the first frame, or the unknown point where there is none.
-/
theorem framesOf_printed (stack : List StackLine)
    : let text := StackLine.stackText stack
      let frames := stack.filterMap StackLine.frame?
      framesOf text = .ok frames
      ∧ (∀ plain,
          StackLine.frame plain ∈ stack
          → plain.frame.line.toNat? = some plain.line
            ∧ plain.frame.column.toNat? = some plain.column)
      ∧ (∀ first rest,
          frames = first :: rest
          → siteOf (some text) = .ok ⟨first.file, first.line, first.column⟩)
      ∧ (frames = [] → siteOf (some text) = .ok ⟨"<unknown>", .zero false, .zero false⟩) := by
  intro text frames
  have read : framesOf text = .ok frames := by
    rw [framesOf, StackLine.lines_stackText]
    split
    case isTrue none =>
      simp only [frames, none]
      rfl
    case isFalse => exact StackLine.mapM_ofFrameLine stack
  have site : siteOf (some text) = .ok ((frames.head?.map Frame.point).getD .unknown) := by
    rw [siteOf, Option.getD_some, read]
    rfl
  refine ⟨read, ?_, ?_, ?_⟩
  · intro plain _
    exact ⟨Binary64.toNat?_ofNat plain.lineExact, Binary64.toNat?_ofNat plain.columnExact⟩
  · intro first rest same
    rw [site, same]
    rfl
  · intro none
    rw [site, none]
    rfl

/-- Files may hold what looks like a procedure, or like numbers and a closing parenthesis. -/
theorem framesOf_printed_misleading_files
    : framesOf "(x:1:2)\n at f (a (b:1:10:2)\n(x:1:2)\nat c:3:4):5:6"
      = .ok [
          ⟨"f", "a (b:1", .ofNat 10, .ofNat 2⟩,
          ⟨"<anonymous>", "c:3:4)", .ofNat 5, .ofNat 6⟩] := by
  let named : PlainFrame := {
    indent := [' ']
    procedure := some ['f']
    file := ['a', ' ', '(', 'b', ':', '1']
    line := 10
    column := 2
    blank := List.all_eq_true.mp rfl
    indentOneLine := by decide
    named := by rintro _ ⟨⟩; rfl
    uncutName := by rintro _ ⟨⟩; decide
    uncutFile := by rintro ⟨⟩
    filed := rfl
    noUrl := by decide
    lineExact := by decide
    columnExact := by decide }
  let bare : PlainFrame := {
    indent := []
    procedure := none
    file := ['c', ':', '3', ':', '4', ')']
    line := 5
    column := 6
    blank := List.all_eq_true.mp rfl
    indentOneLine := by decide
    named := by rintro _ ⟨⟩
    uncutName := by rintro _ ⟨⟩
    uncutFile := by rintro _; decide
    filed := rfl
    noUrl := by decide
    lineExact := by decide
    columnExact := by decide }
  let noise : StackLine := .other ['(', 'x', ':', '1', ':', '2', ')'] (by decide) (by
    rw [FrameLine.first_pattern_eq_ofLine?]
    rfl)
  have text : StackLine.stackText [noise, .frame named, noise, .frame bare]
      = "(x:1:2)\n at f (a (b:1:10:2)\n(x:1:2)\nat c:3:4):5:6" :=
    String.toList_inj.mp (by decide)
  rw [← text]
  exact (framesOf_printed [noise, .frame named, noise, .frame bare]).1

end CompilerReports
