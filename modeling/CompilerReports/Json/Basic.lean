import CompilerReports.Binary64.Basic
import CompilerReports.Binary64.Rounding

/-! JSON values whose numbers are binary64. The fields of an object keep the order in which they
are written, and a field is found by its first occurrence.
-/

namespace CompilerReports

inductive Json where
  | null
  | bool (value : Bool)
  | number (value : Binary64)
  | text (value : String)
  | list (items : List Json)
  | object (fields : List (String × Json))

namespace Json

/-- The number nearest to a natural number, which is the number itself up to 2 ^ 53. -/
def ofNat (n : Nat) : Json := .number (.ofNat n)

/-- The number nearest to an integer, which is the number itself up to 2 ^ 53 on both sides. -/
def ofInt (n : Int) : Json := .number (.ofRatio (decide (n < 0)) n.natAbs 1)

def ofTexts (texts : List String) : Json := .list (texts.map .text)

def field? (key : String) : Json → Option Json
  | .object fields => fields.lookup key
  | _ => none

/-- The value under a key, where the field is absent when it holds null. -/
def given? (key : String) (value : Json) : Option Json :=
  match value.field? key with
  | some .null => none
  | found => found

def text? : Json → Option String
  | .text value => some value
  | _ => none

def number? : Json → Option Binary64
  | .number value => some value
  | _ => none

def list? : Json → Option (List Json)
  | .list items => some items
  | _ => none

def object? : Json → Option (List (String × Json))
  | .object fields => some fields
  | _ => none

/-- The texts of a list that holds nothing else. -/
def texts? (value : Json) : Option (List String) :=
  value.list?.bind fun items => items.mapM text?

def textAt? (key : String) (value : Json) : Option String := (value.field? key).bind text?

def numberAt? (key : String) (value : Json) : Option Binary64 :=
  (value.field? key).bind number?

end Json

end CompilerReports
