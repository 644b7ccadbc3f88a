import CompilerReports.Binary64.Text
import CompilerReports.Json.Basic
import CompilerReports.Json.Quoted

/-! The text of a JSON value, without blanks, with the fields of an object in their order. A
number that is not finite has no JSON form and is written as null.
-/

namespace CompilerReports.Json

def numberChars : Binary64 → List Char
  | .nan | .infinite _ => "null".toList
  | x@(.finite ..) => x.chars

mutual

/-- The text of a value as characters. -/
def chars : Json → List Char
  | .null => "null".toList
  | .bool true => "true".toList
  | .bool false => "false".toList
  | .number value => numberChars value
  | .text value => Quoted.encode value.toList
  | .list items => '[' :: itemsChars items
  | .object fields => '{' :: fieldsChars fields

/-- The items of a list, and the bracket that closes it. -/
def itemsChars : List Json → List Char
  | [] => [']']
  | [item] => item.chars ++ [']']
  | item :: rest => item.chars ++ ',' :: itemsChars rest

/-- The fields of an object, and the brace that closes it. -/
def fieldsChars : List (String × Json) → List Char
  | [] => ['}']
  | [field] => fieldChars field ++ ['}']
  | field :: rest => fieldChars field ++ ',' :: fieldsChars rest

def fieldChars : String × Json → List Char
  | (key, value) => Quoted.encode key.toList ++ ':' :: value.chars

end

def render (value : Json) : String := String.ofList value.chars

end CompilerReports.Json
