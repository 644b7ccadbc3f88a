import CompilerReports.FileUrl
import CompilerReports.Position
import CompilerReports.Text.Pieces

/-! Stack frames as a host prints them, one to a line. A frame line is made of blanks, the word
`at`, a description, two colons each with a run of digits, and perhaps a closing parenthesis.
The description names a file, or a procedure and a file behind ` (`. Lines of any other shape
are no frames.
-/

namespace CompilerReports

-----------------------------------------------------------------------------------------
-- The parts of a frame line

/-- A frame line taken apart: the text of each part. -/
structure FrameLine where
  procedure : Option (List Char)
  file : List Char
  line : List Char
  column : List Char
  deriving DecidableEq

namespace FrameLine

/-- Cuts a text at the first space and parenthesis that have text on both sides. -/
def splitProcedure : List Char → Option (List Char × List Char)
  | [] => none
  | c :: rest =>
      match rest with
      | ' ' :: '(' :: d :: file => some ([c], d :: file)
      | _ => (splitProcedure rest).map fun (name, file) => (c :: name, file)

/-- Takes a colon and a run of digits off the end of a reversed text. The digits are in reading
order in the result, the rest stays reversed.
-/
def takeNumber (reversed : List Char) : Option (List Char × List Char) :=
  let digits := reversed.takeWhile Char.isDigit
  match reversed.dropWhile Char.isDigit with
  | ':' :: rest => if digits.isEmpty then none else some (digits.reverse, rest)
  | _ => none

/-- The text without one closing parenthesis at the end of it, given and returned reversed. -/
def dropParenthesis : List Char → List Char
  | ')' :: rest => rest
  | reversed => reversed

/-- The description and the two numbers of what follows the word `at`. -/
def splitNumbers (text : List Char) : Option (List Char × List Char × List Char) := do
  let (column, beforeColumn) ← takeNumber (dropParenthesis text.reverse)
  let (line, beforeLine) ← takeNumber beforeColumn
  return (beforeLine.reverse, line, column)

/-- The text after leading blanks and the word `at` with its space. -/
def afterAt (text : List Char) : Option (List Char) :=
  match text.dropWhile Text.isBlank with
  | 'a' :: 't' :: ' ' :: rest => some rest
  | _ => none

/-- (isDescription text) holds of the texts that can stand for the description of a frame. -/
def isDescription (text : List Char) : Bool :=
  !text.isEmpty && !text.any Text.isLineTerminator

def ofLine? (text : List Char) : Option FrameLine := do
  let rest ← afterAt text
  let (description, line, column) ← splitNumbers rest
  if isDescription description then
    match splitProcedure description with
    | some (name, file) => return { procedure := some name, file, line, column }
    | none => return { procedure := none, file := description, line, column }
  else
    none

end FrameLine

-----------------------------------------------------------------------------------------
-- Frames

structure Frame where
  procedure : String
  file : String
  line : Binary64
  column : Binary64
  deriving DecidableEq

namespace Frame

/-- The procedure name of a frame that gives none. -/
def anonymous : String := "<anonymous>"

/-- The number that a run of decimal digits writes. -/
def numberOf (digits : List Char) : Binary64 := .ofNat (Nat.ofDigitChars 10 digits 0)

/-- The frame that a frame line describes, unless its file URL names no path. -/
def ofFrameLine (parts : FrameLine) : Except FileUrl.Error Frame := do
  let file ← FileUrl.fileOf parts.file
  return {
    procedure := (parts.procedure.map String.ofList).getD anonymous
    file
    line := numberOf parts.line
    column := numberOf parts.column }

def point (frame : Frame) : Point := ⟨frame.file, frame.line, frame.column⟩

def toJson (frame : Frame) : Json :=
  .object [("procName", .text frame.procedure), ("file", .text frame.file),
    ("line", .number frame.line), ("column", .number frame.column)]

end Frame

/-- The frames of a stack text, in order. The first frame whose file URL names no path decides
the error.
-/
def framesOf (stack : String) : Except FileUrl.Error (List Frame) :=
  ((Text.lines stack.toList).filterMap FrameLine.ofLine?).mapM Frame.ofFrameLine

/-- The position that a stack text gives: its first frame, or the unknown point where there is
no frame or no text. All frames are read, so an error in a later one counts too.
-/
def siteOf (stack : Option String) : Except FileUrl.Error Point := do
  let frames ← framesOf (stack.getD "")
  return (frames.head?.map Frame.point).getD .unknown

end CompilerReports
