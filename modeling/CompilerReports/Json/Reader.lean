import CompilerReports.Bindings
import CompilerReports.Json.Basic
import CompilerReports.Json.Quoted

/-! Reading JSON text by recursive descent. Every reader takes what it reads off the front of
the text, or fails with the text from the first wrong place on. The budget of the nested readers
bounds how deep their calls nest: of any two calls in a row at least one takes a character, so
twice the length of the text suffices. Of two fields with one key the later value counts.
-/

namespace CompilerReports.Json

-----------------------------------------------------------------------------------------
-- Blanks, words and numbers

/-- The blanks that JSON allows between its parts. -/
def isSeparator (c : Char) : Bool := c == ' ' || c == '\t' || c == '\n' || c == '\r'

def skipBlanks (source : List Char) : List Char := source.dropWhile isSeparator

/-- A run of decimal digits, and the text after it. -/
def digitRun (source : List Char) : List Char × List Char :=
  (source.takeWhile Char.isDigit, source.dropWhile Char.isDigit)

/-- The fraction digits of a number, none where there is no point. -/
def fraction (source : List Char) : Except Failure (List Char × List Char) :=
  match source with
  | '.' :: rest =>
      let (digits, after) := digitRun rest
      if digits.isEmpty then .error ⟨.noDigitAfterPoint, rest⟩ else .ok (digits, after)
  | _ => .ok ([], source)

/-- The sign in front of an exponent, and the text after it. -/
def exponentSign (source : List Char) : Bool × List Char :=
  match source with
  | '-' :: rest => (true, rest)
  | '+' :: rest => (false, rest)
  | _ => (false, source)

/-- The exponent of a number, zero where there is none. -/
def exponent (source : List Char) : Except Failure (Int × List Char) :=
  match source with
  | c :: rest =>
      if c == 'e' || c == 'E' then
        let (negative, unsigned) := exponentSign rest
        let (digits, after) := digitRun unsigned
        let size : Int := Nat.ofDigitChars 10 digits 0
        if digits.isEmpty then
          .error ⟨.noDigitInExponent, unsigned⟩
        else
          .ok (if negative then -size else size, after)
      else
        .ok (0, source)
  | [] => .ok (0, source)

/-- The whole digits of a number. A zero in front of further digits is refused. -/
def whole (source : List Char) : Except Failure (List Char × List Char) :=
  let (digits, after) := digitRun source
  if digits.isEmpty then
    .error ⟨.noDigitAfterMinus, source⟩
  else if digits.head? == some '0' && digits.length != 1 then
    .error ⟨.unexpected, source.drop 1⟩
  else
    .ok (digits, after)

/-- An unsigned number under the given sign, rounded once from its decimal. -/
def magnitude (negative : Bool) (source : List Char) : Except Failure (Json × List Char) := do
  let (wholeDigits, afterWhole) ← whole source
  let (fractionDigits, afterFraction) ← fraction afterWhole
  let (power, after) ← exponent afterFraction
  let digits := Nat.ofDigitChars 10 (wholeDigits ++ fractionDigits) 0
  return (.number (.ofDecimal negative digits (power - fractionDigits.length)), after)

/-- The text after the given word, which the source must start with. -/
def afterWord (word source : List Char) : Except Failure (List Char) :=
  match word, source with
  | [], _ => .ok source
  | _ :: _, [] => .error ⟨.unexpected, []⟩
  | expected :: word, c :: rest =>
      if c = expected then afterWord word rest else .error ⟨.unexpected, c :: rest⟩

/-- A word or a number at the front of the text. -/
def readScalar (source : List Char) : Except Failure (Json × List Char) :=
  match source with
  | 'n' :: rest => (afterWord ['u', 'l', 'l'] rest).map fun after => (.null, after)
  | 't' :: rest => (afterWord ['r', 'u', 'e'] rest).map fun after => (.bool true, after)
  | 'f' :: rest => (afterWord ['a', 'l', 's', 'e'] rest).map fun after => (.bool false, after)
  | '-' :: rest => magnitude true rest
  | c :: _ => if c.isDigit then magnitude false source else .error ⟨.unexpected, source⟩
  | [] => .error ⟨.unexpected, []⟩

/-- The key of a field with its colon, at the front of the text. The cause is what is wrong where
no key starts.
-/
def readKey (missing : Cause) (source : List Char) : Except Failure (String × List Char) :=
  match skipBlanks source with
  | '"' :: rest => do
      let (key, after) ← Quoted.decode rest
      match skipBlanks after with
      | ':' :: value => return (String.ofList key, value)
      | other => .error ⟨.noColon, other⟩
  | other => .error ⟨missing, other⟩

-----------------------------------------------------------------------------------------
-- Nested values

mutual

def readValue : Nat → List Char → Except Failure (Json × List Char)
  | 0, source => .error ⟨.unexpected, source⟩
  | budget + 1, source =>
      match skipBlanks source with
      | '"' :: rest => do
          let (value, after) ← Quoted.decode rest
          return (.text (String.ofList value), after)
      | '[' :: rest =>
          match skipBlanks rest with
          | ']' :: after => .ok (.list [], after)
          | first => do
              let (items, after) ← readItems budget first
              return (.list items, after)
      | '\x7b' :: rest =>
          match skipBlanks rest with
          | '\x7d' :: after => .ok (.object [], after)
          | first => do
              let (fields, after) ← readFields budget .noFirstName [] first
              return (.object fields, after)
      | other => readScalar other

/-- The items of a list up to its closing bracket. -/
def readItems : Nat → List Char → Except Failure (List Json × List Char)
  | 0, source => .error ⟨.unexpected, source⟩
  | budget + 1, source => do
      let (item, after) ← readValue budget source
      match skipBlanks after with
      | ',' :: rest => do
          let (items, after) ← readItems budget rest
          return (item :: items, after)
      | ']' :: rest => return ([item], rest)
      | other => .error ⟨.openList, other⟩

/-- The fields of an object up to its closing brace, after the fields already read. The cause is
what is wrong where no key starts.
-/
def readFields : Nat → Cause → List (String × Json) → List Char
    → Except Failure (List (String × Json) × List Char)
  | 0, _, _, source => .error ⟨.unexpected, source⟩
  | budget + 1, missing, known, source => do
      let (key, afterKey) ← readKey missing source
      let (value, after) ← readValue budget afterKey
      let fields := Bindings.put known key value
      match skipBlanks after with
      | ',' :: rest => readFields budget .noFurtherName fields rest
      | '\x7d' :: rest => return (fields, rest)
      | other => .error ⟨.openObject, other⟩

end

/-- The value that a whole text writes. -/
def parse (text : List Char) : Except Failure Json :=
  match readValue (2 * text.length + 1) text with
  | .error failure => .error failure
  | .ok (value, after) =>
      match skipBlanks after with
      | [] => .ok value
      | other => .error ⟨.trailing, other⟩

end CompilerReports.Json
