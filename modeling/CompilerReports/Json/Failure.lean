import CompilerReports.Text.Units

/-! Why a text is no JSON: what is wrong, and at which place. A failure holds the text from its
place on, and the text as a whole tells the place from that. A character that cannot stand at
its place is reported with an excerpt of the text around it, everything else with the place.
-/

namespace CompilerReports.Json

inductive Cause where
  /-- No value starts or goes on with the character there, or the text ends. -/
  | unexpected
  | noFirstName
  | noFurtherName
  | noColon
  | openObject
  | openList
  | openText
  | controlCharacter
  | badUnicodeEscape
  | badEscape
  | noDigitAfterMinus
  | noDigitAfterPoint
  | noDigitInExponent
  | trailing
  deriving DecidableEq

/-- The words for a cause that is reported with its place. -/
def Cause.words? : Cause → Option String
  | .unexpected => none
  | .noFirstName => some "Expected property name or '\x7d' in JSON"
  | .noFurtherName => some "Expected double-quoted property name in JSON"
  | .noColon => some "Expected ':' after property name in JSON"
  | .openObject => some "Expected ',' or '\x7d' after property value in JSON"
  | .openList => some "Expected ',' or ']' after array element in JSON"
  | .openText => some "Unterminated string in JSON"
  | .controlCharacter => some "Bad control character in string literal in JSON"
  | .badUnicodeEscape => some "Bad Unicode escape in JSON"
  | .badEscape => some "Bad escaped character in JSON"
  | .noDigitAfterMinus => some "No number after minus sign in JSON"
  | .noDigitAfterPoint => some "Unterminated fractional number in JSON"
  | .noDigitInExponent => some "Exponent part is missing a number in JSON"
  | .trailing => some "Unexpected non-whitespace character after JSON"

-----------------------------------------------------------------------------------------
-- Places

/-- A place in a text: the units before it, and its line and column, both counted from one. -/
structure Place where
  position : Nat := 0
  line : Nat := 1
  column : Nat := 1
  deriving DecidableEq

namespace Place

/-- The place after a line break of the given number of units. -/
def nextLine (place : Place) (width : Nat) : Place :=
  { position := place.position + width, line := place.line + 1, column := 1 }

/-- The place after further units on the same line. -/
def along (place : Place) (width : Nat) : Place :=
  { place with position := place.position + width, column := place.column + width }

/-- The place after further text. A line feed, a carriage return and the two in a row each break
the line once.
-/
def after (place : Place) : List Char → Place
  | [] => place
  | '\r' :: '\n' :: rest => after (place.nextLine 2) rest
  | c :: rest =>
      if c = '\r' ∨ c = '\n' then
        after (place.nextLine 1) rest
      else
        after (place.along (Text.unitsOfChar c).length) rest

/-- Words with a place behind them. -/
def report (place : Place) (words : String) : String :=
  words ++ " at position " ++ place.position.repr ++ " (line " ++ place.line.repr ++ " column "
    ++ place.column.repr ++ ")"

end Place

-----------------------------------------------------------------------------------------
-- Failures

structure Failure where
  cause : Cause
  /-- The text from the place of the failure on. -/
  unread : List Char
  deriving DecidableEq

namespace Failure

/-- How many units an excerpt shows on each side of its place. -/
def reach : Nat := 10

/-- The quoted excerpt of a text around a position, with dots where the text goes on. A text that
is no longer than two reaches is shown whole.
-/
def excerpt (source : List Char) (position : Nat) : String :=
  let units := Text.unitsOf source
  let quoted (shown : List Nat) : String := "\"" ++ String.ofList (Text.ofUnits shown) ++ "\""
  if units.length ≤ 2 * reach then
    quoted units
  else if position < reach then
    quoted (units.take (position + reach)) ++ "..."
  else if position + reach < units.length then
    "..." ++ quoted ((units.drop (position - reach)).take (2 * reach)) ++ "..."
  else
    "..." ++ quoted (units.drop (position - reach))

/-- Words that are the whole text of a common mistake, and are reported without a place. -/
def mistakenWords : List String := ["NaN", "Infinity", "undefined", "[object Object]"]

/-- The report of a character that cannot stand at its place, or of the end of the text. -/
def unexpected (source unread : List Char) (place : Place) : String :=
  match unread with
  | [] => "Unexpected end of JSON input"
  | c :: _ =>
      if c.isDigit || c == '-' then
        place.report "Unexpected number in JSON"
      else if c == '"' then
        place.report "Unexpected string in JSON"
      else if mistakenWords.contains (String.ofList source) then
        "\"" ++ String.ofList source ++ "\" is not valid JSON"
      else
        "Unexpected token '" ++ String.ofList [c] ++ "', " ++ excerpt source place.position
          ++ " is not valid JSON"

/-- The text of a failure to read the given source. -/
def message (source : List Char) (failure : Failure) : String :=
  let place := Place.after {} (source.take (source.length - failure.unread.length))
  match failure.cause.words? with
  | some words => place.report words
  | none => unexpected source failure.unread place

end Failure

end CompilerReports.Json
