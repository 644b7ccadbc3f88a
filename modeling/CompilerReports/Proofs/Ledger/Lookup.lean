import CompilerReports.Proofs.Binary64.Difference
import CompilerReports.Proofs.Binary64.Whole
import CompilerReports.Proofs.Session.Effects

/-! Looking up reports by any number. A number finds a report exactly where its value is the whole
number of the report's position, and one that finds none is reported as it was given. The look-up
can be carried out by taking one from the number and reading the list at what is left: however the
difference is rounded, no other number comes to lie on a place of the list.
-/

namespace CompilerReports

/-- The value of a number is a whole number from one on. -/
def Binary64.CanBeId (number : Binary64) : Prop :=
  ∃ position : Int, number.value? = some (position : ℚ) ∧ 1 ≤ position

/-- A number can be an id exactly where it reads as a natural number other than zero. -/
theorem Binary64.canBeId_iff {number : Binary64}
    : number.CanBeId ↔ ∃ index, number.toNat? = some (index + 1) := by
  constructor
  · rintro ⟨position, valued, least⟩
    obtain ⟨k, rfl⟩ := Int.eq_ofNat_of_zero_le (by omega : 0 ≤ position)
    obtain ⟨index, rfl⟩ : ∃ index, k = index + 1 := ⟨k - 1, by omega⟩
    exact ⟨index, toNat?_eq_some_iff.mpr valued⟩
  · rintro ⟨index, read⟩
    exact ⟨(index + 1 : Nat), toNat?_eq_some_iff.mp read, by omega⟩

namespace Ledger

-----------------------------------------------------------------------------------------
-- What a number finds
-----------------------------------------------------------------------------------------

/-- A number has a position of the ledger as its value. -/
def Issued (ledger : Ledger) (number : Binary64) : Prop :=
  ∃ position : Int, number.value? = some (position : ℚ) ∧ 1 ≤ position ∧ position ≤ ledger.size

/-- A number has the position of the given report as its value. -/
def IssuedFor (ledger : Ledger) (number : Binary64) (report : Report) : Prop :=
  ∃ index : Nat,
    number.value? = some ((index + 1 : Nat) : ℚ) ∧ ledger.reports[index]? = some report

/-- Each position is that of a report. -/
theorem issued_iff {ledger : Ledger} {number : Binary64}
    : ledger.Issued number ↔ ∃ report, ledger.IssuedFor number report := by
  constructor
  · rintro ⟨position, valued, least, most⟩
    obtain ⟨k, rfl⟩ := Int.eq_ofNat_of_zero_le (by omega : 0 ≤ position)
    obtain ⟨index, rfl⟩ : ∃ index, k = index + 1 := ⟨k - 1, by omega⟩
    have inside : index < ledger.reports.length := by
      simp only [size] at most
      omega
    exact ⟨_, index, valued, List.getElem?_eq_getElem inside⟩
  · rintro ⟨report, index, valued, shown⟩
    obtain ⟨inside, -⟩ := List.getElem?_eq_some_iff.mp shown
    exact ⟨(index + 1 : Nat), valued, by omega, by simp only [size]; omega⟩

/-- Such a number can be an id. -/
theorem IssuedFor.canBeId {ledger : Ledger} {number : Binary64} {report : Report}
    (issued : ledger.IssuedFor number report)
    : number.CanBeId := by
  obtain ⟨index, valued, -⟩ := issued
  exact ⟨(index + 1 : Nat), valued, by omega⟩

theorem issuedFor_iff {ledger : Ledger} {number : Binary64} {report : Report}
    : ledger.IssuedFor number report ↔ number.toNat?.bind ledger.get? = some report := by
  rw [Option.bind_eq_some_iff]
  constructor
  · rintro ⟨index, valued, shown⟩
    exact ⟨index + 1, Binary64.toNat?_eq_some_iff.mpr valued, shown⟩
  · rintro ⟨id, read, shown⟩
    cases id with
    | zero => cases shown
    | succ index => exact ⟨index, Binary64.toNat?_eq_some_iff.mp read, shown⟩

/-- A number finds the report of the position that it has as its value. -/
theorem find_eq_ok_iff {ledger : Ledger} {number : Binary64} {report : Report}
    : ledger.find number = .ok report ↔ ledger.IssuedFor number report := by
  rw [issuedFor_iff, find]
  cases number.toNat?.bind ledger.get? <;> simp

/-- A number that finds no report is unknown. -/
theorem find_of_not_issued {ledger : Ledger} {number : Binary64} (unknown : ¬ ledger.Issued number)
    : ledger.find number = .error (.fault (.unknownId number (.ofNat ledger.size))) := by
  cases found : number.toNat?.bind ledger.get? with
  | none => simp only [find, found]
  | some report => exact absurd (issued_iff.mpr ⟨report, issuedFor_iff.mpr found⟩) unknown

/-- The check lets each number through that can be an id, and refuses the others. -/
theorem findChecked_of_canBeId {ledger : Ledger} {number : Binary64} (able : number.CanBeId)
    : ledger.findChecked number = ledger.find number := by
  obtain ⟨index, read⟩ := Binary64.canBeId_iff.mp able
  simp only [findChecked, checkId, read]

theorem findChecked_of_not_canBeId {ledger : Ledger} {number : Binary64}
    (unable : ¬ number.CanBeId)
    : ledger.findChecked number = .error (.fault (.invalidId number)) := by
  simp only [findChecked, checkId]
  cases read : number.toNat? with
  | none => rfl
  | some position =>
      cases position with
      | zero => rfl
      | succ index => exact absurd (Binary64.canBeId_iff.mpr ⟨index, read⟩) unable

-----------------------------------------------------------------------------------------
-- One less, as a place in the list
-----------------------------------------------------------------------------------------

/-- The look-up as it is carried out: one is taken from the number, and the list is read at what is
left. What is no place of the list reads as nothing.
-/
def findBelow (ledger : Ledger) (id : Binary64) : Except Refusal Report :=
  match (id.sub .one).toNat?.bind fun place => ledger.reports[place]? with
  | some report => .ok report
  | none => .error (.fault (.unknownId id (.ofNat ledger.size)))

/-- It finds what the number names, as long as each place of the list is a whole number that the
format tells from its neighbours.
-/
theorem findBelow_eq_find {ledger : Ledger} (exact : ledger.size ≤ 2 ^ 53) (id : Binary64)
    : ledger.findBelow id = ledger.find id := by
  have same : ((id.sub .one).toNat?.bind fun place => ledger.reports[place]?)
      = id.toNat?.bind ledger.get? := by
    refine Option.ext fun report => ?_
    simp only [Option.bind_eq_some_iff]
    constructor
    · rintro ⟨place, read, shown⟩
      obtain ⟨inside, -⟩ := List.getElem?_eq_some_iff.mp shown
      exact ⟨place + 1, (Binary64.toNat?_sub_one (inside.trans_le exact)).mp read, shown⟩
    · rintro ⟨position, read, shown⟩
      cases position with
      | zero => cases shown
      | succ place =>
          obtain ⟨inside, -⟩ := List.getElem?_eq_some_iff.mp shown
          exact ⟨place, (Binary64.toNat?_sub_one (inside.trans_le exact)).mpr read, shown⟩
  cases found : id.toNat?.bind ledger.get? <;> simp only [findBelow, find, same, found]

end Ledger

namespace Session

-----------------------------------------------------------------------------------------
-- Look-ups of a session
-----------------------------------------------------------------------------------------

/-- What a session answers about a look-up. -/
def lookupOutcome (result : Except Refusal Report) : Except Failure Answer :=
  match result with
  | .ok report => .ok (.report report)
  | .error refusal => .error (.refused refusal)

theorem lookupOutcome_eq_ok_iff {result : Except Refusal Report} {report : Report}
    : lookupOutcome result = .ok (.report report) ↔ result = .ok report := by
  cases result <;> simp [lookupOutcome]

theorem outcome_find (session : Session) (ledger : String) (number : Binary64)
    (name : Option String)
    : (session.step (.find ledger number name)).2.outcome
      = lookupOutcome ((session.ledger ledger).find number) := by
  rw [step_outcome, judge]
  cases (session.ledger ledger).find number <;> rfl

theorem outcome_findChecked (session : Session) (ledger : String) (number : Binary64)
    (name : Option String)
    : (session.step (.findChecked ledger number name)).2.outcome
      = lookupOutcome ((session.ledger ledger).findChecked number) := by
  rw [step_outcome, judge]
  cases (session.ledger ledger).findChecked number <;> rfl

/-- A command that adds nothing leaves every ledger as it was. -/
theorem step_ledger_of_none (session : Session) (command : Command)
    (none : (session.judge command).added = []) (name : String)
    : (session.step command).1.ledger name = session.ledger name := by
  by_cases named : command.ledger? = some name
  · rw [step_ledger_self named, none]
    exact congrArg Ledger.mk (List.append_nil _)
  · exact step_ledger_of_ne named

/-- Looking up any number. It succeeds exactly where the value of the number is a position of the
ledger, and then shows the report of that position; otherwise the number is unknown, and the
fault carries it beside the size. With the number checked first, the same numbers succeed with
the same reports, and those that can be no id are invalid instead of unknown. Every ledger stays
as it was. Taking one from the number and reading the list there comes to the same.
-/
theorem find_by_any_number (session : Session) (ledger : String) (number : Binary64)
    (name : Option String)
    : let held := session.ledger ledger
      let found := session.step (.find ledger number name)
      let checked := session.step (.findChecked ledger number name)
      let unknown := Failure.refused (.fault (.unknownId number (.ofNat held.size)))
      let invalid := Failure.refused (.fault (.invalidId number))
      (∀ report, found.2.outcome = .ok (.report report) ↔ held.IssuedFor number report)
      ∧ (∀ report, checked.2.outcome = .ok (.report report) ↔ held.IssuedFor number report)
      ∧ (held.Issued number ↔ ∃ report, held.IssuedFor number report)
      ∧ (¬ held.Issued number → found.2.outcome = .error unknown)
      ∧ (¬ held.Issued number → number.CanBeId → checked.2.outcome = .error unknown)
      ∧ (¬ number.CanBeId → checked.2.outcome = .error invalid)
      ∧ (∀ other,
          found.1.ledger other = session.ledger other
          ∧ checked.1.ledger other = session.ledger other)
      ∧ (held.size ≤ 2 ^ 53
          → held.find number = held.findBelow number
            ∧ (Binary64.ofNat held.size).value? = some (held.size : ℚ)) := by
  intro held found checked unknown invalid
  have foundIs : found.2.outcome = lookupOutcome (held.find number) := outcome_find ..
  have checkedIs : checked.2.outcome = lookupOutcome (held.findChecked number) :=
    outcome_findChecked ..
  refine ⟨?found, ?checked, Ledger.issued_iff, ?unknown, ?checkedUnknown, ?invalid, ?ledgers,
    ?below⟩
  case found =>
    intro report
    rw [foundIs, lookupOutcome_eq_ok_iff, Ledger.find_eq_ok_iff]
  case checked =>
    intro report
    rw [checkedIs, lookupOutcome_eq_ok_iff]
    by_cases able : number.CanBeId
    · rw [Ledger.findChecked_of_canBeId able, Ledger.find_eq_ok_iff]
    · rw [Ledger.findChecked_of_not_canBeId able]
      exact iff_of_false nofun fun issued => able issued.canBeId
  case unknown =>
    intro missing
    rw [foundIs, Ledger.find_of_not_issued missing]
    rfl
  case checkedUnknown =>
    intro missing able
    rw [checkedIs, Ledger.findChecked_of_canBeId able, Ledger.find_of_not_issued missing]
    rfl
  case invalid =>
    intro unable
    rw [checkedIs, Ledger.findChecked_of_not_canBeId unable]
    rfl
  case ledgers =>
    intro other
    have silent (result : Except Refusal Report)
        : (Verdict.ofResult result fun report => .make name report).added = [] :=
      Verdict.ofResult_cases (fun verdict => verdict.added = []) (fun _ _ => rfl) fun _ _ => rfl
    exact ⟨session.step_ledger_of_none (.find ledger number name) (silent _) other,
      session.step_ledger_of_none (.findChecked ledger number name) (silent _) other⟩
  case below =>
    intro exact
    exact ⟨(Ledger.findBelow_eq_find exact number).symm,
      Binary64.toNat?_eq_some_iff.mp (Binary64.toNat?_ofNat exact)⟩

end Session

end CompilerReports
