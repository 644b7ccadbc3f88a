import CompilerReports.Binary64.Text
import CompilerReports.Json.Basic

/-! Positions in source texts: points, ranges, and the line info that holds one of the two. Each
has a JSON form. Reading is lenient in what it accepts and exact in what it keeps: fields
beyond the declared ones are dropped.
-/

namespace CompilerReports

-----------------------------------------------------------------------------------------
-- Points

/-- A single position. Lines and columns are binary64 numbers and hold what they were given. -/
structure Point where
  file : String
  line : Binary64
  column : Binary64
  deriving DecidableEq

namespace Point

/-- The point that stands for an unknown position. -/
def unknown : Point := ⟨"<unknown>", .zero false, .zero false⟩

/-- The text of a point: the file, and the line and the column in parentheses. -/
def text (point : Point) : String :=
  point.file ++ "(" ++ point.line.text ++ ", " ++ point.column.text ++ ")"

def toJson (point : Point) : Json :=
  .object [("file", .text point.file), ("line", .number point.line),
    ("column", .number point.column)]

/-- Reads a point; further fields are dropped. -/
def ofJson? (value : Json) : Option Point := do
  let file ← value.textAt? "file"
  let line ← value.numberAt? "line"
  let column ← value.numberAt? "column"
  return { file, line, column }

theorem ofJson?_toJson (point : Point)
    : ofJson? point.toJson = some point := by
  rfl

end Point

-----------------------------------------------------------------------------------------
-- Ranges

/-- A stretch of source text within one file. -/
structure Range where
  file : String
  startLine : Binary64
  endLine : Binary64
  startColumn : Binary64
  endColumn : Binary64
  deriving DecidableEq

namespace Range

def toJson (range : Range) : Json :=
  .object [("file", .text range.file), ("startLine", .number range.startLine),
    ("endLine", .number range.endLine), ("startColumn", .number range.startColumn),
    ("endColumn", .number range.endColumn)]

/-- Reads a range; further fields are dropped. -/
def ofJson? (value : Json) : Option Range := do
  let file ← value.textAt? "file"
  let startLine ← value.numberAt? "startLine"
  let endLine ← value.numberAt? "endLine"
  let startColumn ← value.numberAt? "startColumn"
  let endColumn ← value.numberAt? "endColumn"
  return { file, startLine, endLine, startColumn, endColumn }

theorem ofJson?_toJson (range : Range)
    : ofJson? range.toJson = some range := by
  rfl

end Range

-----------------------------------------------------------------------------------------
-- Line info

/-- Where in the user's source a condition was detected. -/
inductive LineInfo where
  | point (place : Point)
  | range (stretch : Range)
  deriving DecidableEq

namespace LineInfo

def toJson : LineInfo → Json
  | .point place => .object [("kind", .text "point"), ("point", place.toJson)]
  | .range stretch => .object [("kind", .text "range"), ("range", stretch.toJson)]

/-- Reads line info. A value without a kind is a bare point; a kind other than `point` is read
as a range.
-/
def ofJson? (value : Json) : Option LineInfo :=
  match value.field? "kind" with
  | none => (Point.ofJson? value).map .point
  | some (.text "point") => ((value.field? "point").bind Point.ofJson?).map .point
  | some _ => ((value.field? "range").bind Range.ofJson?).map .range

/-- Reading the JSON form of line info gives the line info back. -/
theorem ofJson?_toJson (info : LineInfo)
    : ofJson? info.toJson = some info := by
  cases info with
  | point point => exact congrArg (Option.map LineInfo.point) point.ofJson?_toJson
  | range range => exact congrArg (Option.map LineInfo.range) range.ofJson?_toJson

end LineInfo

end CompilerReports
