import CompilerReports.Ledger

/-! Cursors: positions in ledgers that may still grow. A cursor yields the report at its position
and moves on; at the end of its ledger it finishes, and a finished cursor stays finished however
the ledger grows.
-/

namespace CompilerReports

/-- A position in a named ledger. A numbered cursor yields ids beside its reports. -/
structure Cursor where
  ledger : String
  numbered : Bool
  position : Nat := 0
  finished : Bool := false
  deriving DecidableEq

namespace Cursor

/-- The id and the report that a cursor yields next, if it is not at the end. -/
def peek (cursor : Cursor) (ledger : Ledger) : Option (Nat × Report) :=
  if cursor.finished then
    none
  else
    (ledger.reports[cursor.position]?).map fun report => (cursor.position + 1, report)

/-- The cursor after it has yielded what it can. -/
def advance (cursor : Cursor) (ledger : Ledger) : Cursor :=
  match cursor.peek ledger with
  | some _ => { cursor with position := cursor.position + 1 }
  | none => { cursor with finished := true }

/-- A finished cursor yields nothing, whatever its ledger holds. -/
theorem peek_of_finished {cursor : Cursor} (finished : cursor.finished = true)
    (ledger : Ledger)
    : cursor.peek ledger = none := by
  simp [peek, finished]

end Cursor

end CompilerReports
