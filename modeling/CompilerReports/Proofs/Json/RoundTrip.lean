import CompilerReports.Proofs.Json.Numbers
import CompilerReports.Proofs.Json.Quoted

/-! What is printed is read back. The text of a value ends where the value does: nothing that can
follow a value goes on with a number, and everything else has its own end. So a nested value is read
off the front of what is left, and the budget that is left after each call still covers the rest of
the text twice.
-/

namespace CompilerReports.Json

-----------------------------------------------------------------------------------------
-- What can be read back
-----------------------------------------------------------------------------------------

/-- The values whose text tells them from any other value: the numbers in them have a text of their
own, and no object names a field twice.
-/
inductive Printable : Json → Prop where
  | null : Printable .null
  | bool (value : Bool) : Printable (.bool value)
  | number {value : Binary64} (written : Written value) : Printable (.number value)
  | text (value : String) : Printable (.text value)
  | list {items : List Json} (each : ∀ item ∈ items, Printable item) : Printable (.list items)
  | object {fields : List (String × Json)} (distinct : (fields.map Prod.fst).Nodup)
    (each : ∀ field ∈ fields, Printable field.2)
    : Printable (.object fields)

/-- (StartsScalar c) holds of the characters that words and numbers start with. -/
def StartsScalar (c : Char) : Prop := c.isDigit = true ∨ c ∈ ['-', 'n', 't', 'f']

/-- Such a character is none of those that stand for something else in front of a value. -/
theorem StartsScalar.ne {c other : Char} (starts : StartsScalar c)
    (elsewhere : other.isDigit = false ∧ other ∉ ['-', 'n', 't', 'f'])
    : c ≠ other := by
  rintro rfl
  rcases starts with digit | word
  · exact Bool.false_ne_true (elsewhere.1.symm.trans digit)
  · exact elsewhere.2 word

theorem StartsScalar.isSeparator {c : Char} (starts : StartsScalar c)
    : isSeparator c = false := by
  have space : c ≠ ' ' := starts.ne (by decide)
  have tab : c ≠ '\t' := starts.ne (by decide)
  have feed : c ≠ '\n' := starts.ne (by decide)
  have carriage : c ≠ '\r' := starts.ne (by decide)
  simp [Json.isSeparator, space, tab, feed, carriage]

variable {budget : Nat} {source rest after : List Char}

section

variable {key : String} {value : Json} {known fields : List (String × Json)}

end

end CompilerReports.Json
