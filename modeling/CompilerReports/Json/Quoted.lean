import CompilerReports.Json.Failure
import CompilerReports.Text.Hex

/-! Quoted JSON text. Quotes, backslashes and the characters below the space are written as
escapes, with a letter where there is one; every other character stands for itself. Reading
accepts every escape of the format, two halves of a surrogate pair included.
-/

namespace CompilerReports.Json.Quoted

open CompilerReports.Text

/-- One character of a text as it is written between quotes. -/
def encodeChar (c : Char) : List Char :=
  match c with
  | '"' => ['\\', '"']
  | '\\' => ['\\', '\\']
  | '\x08' => ['\\', 'b']
  | '\x0c' => ['\\', 'f']
  | '\n' => ['\\', 'n']
  | '\r' => ['\\', 'r']
  | '\t' => ['\\', 't']
  | c =>
      if c.toNat < 0x20 then
        ['\\', 'u', '0', '0', Hex.digit (c.toNat / 16), Hex.digit (c.toNat % 16)]
      else
        [c]

def encode (text : List Char) : List Char := '"' :: text.flatMap encodeChar ++ ['"']

/-- The 16 bit unit that four hexadecimal digits write. -/
def unit? (a b c d : Char) : Option Nat := do
  let high := 16 * (← Hex.value? a) + (← Hex.value? b)
  let low := 16 * (← Hex.value? c) + (← Hex.value? d)
  return 256 * high + low

/-- The character that a one-letter escape stands for. -/
def letter? : Char → Option Char
  | '"' => some '"'
  | '\\' => some '\\'
  | '/' => some '/'
  | 'b' => some '\x08'
  | 'f' => some '\x0c'
  | 'n' => some '\n'
  | 'r' => some '\r'
  | 't' => some '\t'
  | _ => none

/-- The code units up to the closing quote, and what follows it. A character beyond the escapes
counts as one unit of its own code point.
-/
def units : List Char → Except Failure (List Nat × List Char)
  | [] => .error ⟨.openText, []⟩
  | c :: rest =>
      if c = '"' then
        .ok ([], rest)
      else if c = '\\' then
        match rest with
        | 'u' :: a :: b :: c :: d :: more =>
            match unit? a b c d with
            | some unit => (units more).map fun (later, after) => (unit :: later, after)
            | none =>
                .error ⟨.badUnicodeEscape, (a :: b :: c :: d :: more).dropWhile Hex.isDigit⟩
        | 'u' :: short => .error ⟨.badUnicodeEscape, short.dropWhile Hex.isDigit⟩
        | letter :: more =>
            match letter? letter with
            | some meant =>
                (units more).map fun (later, after) => (meant.toNat :: later, after)
            | none => .error ⟨.badEscape, letter :: more⟩
        | [] => .error ⟨.openText, []⟩
      else if c.toNat < 0x20 then
        .error ⟨.controlCharacter, c :: rest⟩
      else
        (units rest).map fun (later, after) => (c.toNat :: later, after)

/-- The text that stands after an opening quote, and what follows its closing quote. Escapes of
single halves of a surrogate pair write no text.
-/
def decode (text : List Char) : Except Failure (List Char × List Char) :=
  match units text with
  | .error failure => .error failure
  | .ok (found, after) =>
      match Text.ofUnits? found with
      | some meant => .ok (meant, after)
      | none => .error ⟨.badUnicodeEscape, after⟩

end CompilerReports.Json.Quoted
