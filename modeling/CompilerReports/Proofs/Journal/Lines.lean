import CompilerReports.Journal
import CompilerReports.Proofs.Binary64.Difference
import CompilerReports.Proofs.Binary64.Whole
import CompilerReports.Proofs.Json.Visible

/-! A line of the journal is one event. Behind the fixed start stands the text of an object without
control characters, which is read back as the object: its texts are the event's own, and its number
is one whose value is the id. So a line tells its event.
-/

namespace CompilerReports

-----------------------------------------------------------------------------------------
-- Ids as numbers
-----------------------------------------------------------------------------------------

namespace Binary64

end Binary64

-----------------------------------------------------------------------------------------
-- Lines
-----------------------------------------------------------------------------------------

namespace Event

/-- (Numbered event) requires the id of an added report to be the value of a number, as every id
up to the 53rd power of two is.
-/
def Numbered : Event → Prop
  | .added id _ _ _ => ∃ number : Binary64, number.toNat? = some id
  | .faulted _ _ => True

/-- (event.HasFields fields) requires the fields to be those of the event, in their order and no
others: its texts character by character, and its id as the value of a number.
-/
def HasFields (event : Event) (fields : List (String × Json)) : Prop :=
  match event with
  | .added id category kind site =>
      ∃ number : Binary64,
        number.toNat? = some id
        ∧ fields
          = [("event", .text "report-added"), ("id", .number number),
              ("category", .text category), ("kind", .text kind), ("site", .text site)]
  | .faulted tag message =>
      fields
      = [("event", .text "consistency-fault"), ("fault", .text tag), ("message", .text message)]

/-- Fields are those of one event only. -/
theorem HasFields.unique {event other : Event} {fields : List (String × Json)}
    (own : event.HasFields fields) (others : other.HasFields fields)
    : event = other := by
  cases event with
  | added id category kind site =>
      obtain ⟨number, value, rfl⟩ := own
      cases other with
      | added otherId _ _ _ =>
          obtain ⟨otherNumber, otherValue, same⟩ := others
          simp only [List.cons.injEq, Prod.mk.injEq, Json.number.injEq, Json.text.injEq, true_and,
            and_true] at same
          obtain ⟨rfl, rfl, rfl, rfl⟩ := same
          rw [Option.some.inj (value.symm.trans otherValue)]
      | faulted _ _ => simp [HasFields] at others
  | faulted tag message =>
      cases own
      cases other with
      | added _ _ _ _ => simp [HasFields] at others
      | faulted _ _ =>
          simp only [HasFields, List.cons.injEq, Prod.mk.injEq, Json.text.injEq, true_and,
            and_true] at others
          obtain ⟨rfl, rfl⟩ := others
          rfl

end Event

end CompilerReports
