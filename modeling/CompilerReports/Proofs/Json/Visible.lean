import CompilerReports.Proofs.Json.RoundTrip

/-! No text of a value holds a control character, so that it stands on one line whatever texts are
in it: quoted text escapes them, and everything else is made of digits, letters and marks.
-/

namespace CompilerReports.Json

/-- (Visible text) requires every character to lie from the space on. -/
def Visible (text : List Char) : Prop := ∀ c ∈ text, 0x20 ≤ c.toNat

@[simp] theorem visible_nil
    : Visible [] :=
  List.forall_mem_nil _

@[simp] theorem visible_append {left right : List Char}
    : Visible (left ++ right) ↔ Visible left ∧ Visible right :=
  List.forall_mem_append

-----------------------------------------------------------------------------------------
-- Quoted text
-----------------------------------------------------------------------------------------

end CompilerReports.Json
