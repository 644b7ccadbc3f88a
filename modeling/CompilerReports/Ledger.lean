import CompilerReports.Report

/-! Ledgers: append-only records of the reports of one compilation. Reports are numbered from one
in the order of their arrival, and the number a report was given stays its own.
-/

namespace CompilerReports

/-- The reports of one compilation, in the order of their arrival. -/
structure Ledger where
  reports : List Report := []

namespace Ledger

def size (ledger : Ledger) : Nat := ledger.reports.length

/-- The ledger with further reports at its end. -/
def append (ledger : Ledger) (more : List Report) : Ledger := ⟨ledger.reports ++ more⟩

def get? (ledger : Ledger) (id : Nat) : Option Report :=
  match id with
  | 0 => none
  | index + 1 => ledger.reports[index]?

/-- The report under an id given as any number; a number that names no report is a fault. -/
def find (ledger : Ledger) (id : Binary64) : Except Refusal Report :=
  match id.toNat?.bind ledger.get? with
  | some report => .ok report
  | none => .error (.fault (.unknownId id (.ofNat ledger.size)))

/-- A number that can be an id: a whole number from one on. Any other number is a fault. -/
def checkId (id : Binary64) : Except Refusal Binary64 :=
  match id.toNat? with
  | some (_ + 1) => .ok id
  | _ => .error (.fault (.invalidId id))

/-- The report under an id, after the check that the number can be one. -/
def findChecked (ledger : Ledger) (id : Binary64) : Except Refusal Report :=
  match checkId id with
  | .ok checked => ledger.find checked
  | .error refusal => .error refusal

/-- Reports numbered from the given id on. -/
def numbered : Nat → List Report → List (Nat × Report)
  | _, [] => []
  | id, report :: rest => (id, report) :: numbered (id + 1) rest

def entries (ledger : Ledger) : List (Nat × Report) := numbered 1 ledger.reports

def kinds (ledger : Ledger) : List String := ledger.reports.map Report.kind

/-- A ledger's size grows by the number of appended reports. -/
theorem size_append (ledger : Ledger) (more : List Report)
    : (ledger.append more).size = ledger.size + more.length := by
  simp [append, size]

theorem append_append (ledger : Ledger) (left right : List Report)
    : (ledger.append left).append right = ledger.append (left ++ right) := by
  simp [append]

/-- An id that named a report names the same report after any append. -/
theorem get?_append_of_get? {ledger : Ledger} {id : Nat} {report : Report}
    (found : ledger.get? id = some report) (more : List Report)
    : (ledger.append more).get? id = some report := by
  cases id with
  | zero => simp [get?] at found
  | succ index =>
      simp only [get?] at found ⊢
      obtain ⟨inside, same⟩ := List.getElem?_eq_some_iff.mp found
      simpa [append, List.getElem?_append_left inside] using found

end Ledger

end CompilerReports
