import CompilerReports.Bindings
import CompilerReports.Journal
import CompilerReports.Session.Answer
import CompilerReports.Session.Command
import CompilerReports.Session.Cursor

/-! Running the commands of a session. A command is first judged, which decides what it adds to
its ledger, what it binds and what it answers, and changes nothing; then the verdict is carried
out and journalled. Whatever a command does to a session can be read off its verdict.
-/

namespace CompilerReports

/-- What a session remembers: ledgers and the named things that commands speak of. A view is the
name of the ledger it shows.
-/
structure Session where
  tracing : Bool := false
  ledgers : Bindings Ledger := {}
  reports : Bindings Report := {}
  policies : Bindings Policy := {}
  views : Bindings String := {}
  cursors : Bindings Cursor := {}

/-- What a command leaves behind beside its additions to a ledger. -/
inductive Change where
  | nothing
  | tracing (enabled : Bool)
  | report (name : String) (report : Report)
  | policy (name : String) (policy : Policy)
  | view (name ledger : String)
  | cursor (name : String) (cursor : Cursor)

/-- What is decided about a command. -/
structure Verdict where
  /-- The reports it adds to the ledger it names. -/
  added : List Report := []
  change : Change := .nothing
  outcome : Except Failure Answer

namespace Verdict

def answer (answer : Answer) : Verdict := { outcome := .ok answer }

def fail (failure : Failure) : Verdict := { outcome := .error failure }

/-- The verdict of a command whose operation is refused. -/
def refuse (refusal : Refusal) : Verdict := fail (.refused refusal)

/-- The verdict of a command that makes a report, and binds a name to it where one is given. -/
def make (name : Option String) (report : Report) : Verdict where
  change := match name with
    | some name => .report name report
    | none => .nothing
  outcome := .ok (.report report)

/-- The verdict of a command that turns on whether its operation is refused. -/
def ofResult {α : Type} (result : Except Refusal α) (use : α → Verdict) : Verdict :=
  match result with
  | .ok value => use value
  | .error refusal => refuse refusal

/-- The verdict of a command that speaks of something by name. -/
def withBound {α : Type} (bindings : Bindings α) (name : String) (use : α → Verdict)
    : Verdict :=
  match bindings.get? name with
  | some value => use value
  | none => fail (.unbound name)

end Verdict

namespace Session

/-- A ledger by name; one that was never named is empty. -/
def ledger (session : Session) (name : String) : Ledger := (session.ledgers.get? name).getD {}

def nextId (session : Session) (ledger : String) : Nat := (session.ledger ledger).size + 1

def withOverrides (session : Session) (judging : Judging) (use : Overrides → Verdict) : Verdict :=
  match judging with
  | .given overrides => use overrides
  | .policy name => .withBound session.policies name fun policy => use policy.overrides

/-- The reports of the given names, or the first name that is bound to none. -/
def reportsNamed (session : Session) : List String → Except Failure (List Report)
  | [] => .ok []
  | name :: rest =>
      match session.reports.get? name, session.reportsNamed rest with
      | none, _ => .error (.unbound name)
      | _, .error failure => .error failure
      | some report, .ok reports => .ok (report :: reports)

def withSource (session : Session) (source : Source) (use : List Report → Verdict) : Verdict :=
  match source with
  | .ledger name => use (session.ledger name).reports
  | .reports names =>
      match session.reportsNamed names with
      | .ok reports => use reports
      | .error failure => .fail failure

/-- Mints drafts in order up to the first that is refused. -/
def mintAll : List Draft → List Report × Option Refusal
  | [] => ([], none)
  | draft :: rest =>
      match draft.mint with
      | .error refusal => ([], some refusal)
      | .ok report =>
          let (reports, refusal) := mintAll rest
          (report :: reports, refusal)

/-- The draft of the report about a rejected name. -/
def rejectionDraft (site : Option Point) (stack : Option String) (payload : Payload) : Draft where
  category := Category.external.name
  payload
  site
  stack

def judge (session : Session) : Command → Verdict
  | .setTracing flag =>
      let enabled := Tracing.isEnabled flag
      { change := .tracing enabled, outcome := .ok (.truth enabled) }
  | .mint name draft => .ofResult draft.mint fun report => .make name report
  | .within name report step =>
      .withBound session.reports report fun inner => .make name (inner.within step)
  | .kindOf report => .withBound session.reports report fun found => .answer (.kind found.kind)
  | .describe report => .withBound session.reports report fun found => .answer (.report found)
  | .isOf report category =>
      .withBound session.reports report fun found => .answer (.truth (found.isOf category))
  | .add ledger report =>
      .withBound session.reports report fun found =>
        { added := [found], outcome := .ok (.id (session.nextId ledger)) }
  | .find ledger id name =>
      .ofResult ((session.ledger ledger).find id) fun report => .make name report
  | .findChecked ledger id name =>
      .ofResult ((session.ledger ledger).findChecked id) fun report => .make name report
  | .emit carrier draft =>
      .ofResult draft.mint fun report =>
        { added := [report], outcome := .ok (.id (session.nextId carrier.ledger)) }
  | .abort carrier draft =>
      .ofResult draft.mint fun report =>
        { added := [report]
          outcome := .error
            (.aborted carrier.ledger (session.nextId carrier.ledger) report) }
  | .size ledger => .answer (.size (session.ledger ledger).size)
  | .reports ledger => .answer (.reports (session.ledger ledger).reports)
  | .entries ledger => .answer (.entries (session.ledger ledger).entries)
  | .kinds ledger => .answer (.kinds (session.ledger ledger).kinds)
  | .openView name ledger => { change := .view name ledger, outcome := .ok .silent }
  | .readView view =>
      .withBound session.views view fun ledger =>
        .answer (.kinds (session.ledger ledger).kinds)
  | .openCursor name ledger numbered =>
      { change := .cursor name { ledger, numbered }, outcome := .ok .silent }
  | .next name =>
      .withBound session.cursors name fun cursor =>
        let ledger := session.ledger cursor.ledger
        { change := .cursor name (cursor.advance ledger)
          outcome := .ok (match cursor.peek ledger with
            | some (id, report) => .yielded (if cursor.numbered then some id else none) report
            | none => .finished) }
  | .resolve name asError asWarning =>
      let policy := Policy.resolve asError asWarning
      { change := match name with
          | some name => .policy name policy
          | none => .nothing
        outcome := .ok (.policy policy) }
  | .emitRejected ledger policy site stack =>
      .withBound session.policies policy fun found =>
        let (reports, refusal) := mintAll (found.rejected.map (rejectionDraft site stack))
        { added := reports
          outcome := match refusal with
            | some refusal => .error (.refused refusal)
            | none => .ok (.ids (List.range' (session.nextId ledger) reports.length)) }
  | .severity report judging =>
      .withBound session.reports report fun found =>
        session.withOverrides judging fun overrides =>
          .answer (.severity (found.severity overrides))
  | .severities ledger judging =>
      session.withOverrides judging fun overrides =>
        .answer (.severities
          ((session.ledger ledger).reports.map fun report => report.severity overrides))
  | .tally source judging =>
      session.withSource source fun reports =>
        session.withOverrides judging fun overrides =>
          .answer (.tally (Tally.ofReports overrides reports))
  | .greatest source judging =>
      session.withSource source fun reports =>
        session.withOverrides judging fun overrides =>
          .answer (.greatest (Severity.greatest? overrides reports))

def apply (session : Session) : Change → Session
  | .nothing => session
  | .tracing enabled => { session with tracing := enabled }
  | .report name report => { session with reports := session.reports.set name report }
  | .policy name policy => { session with policies := session.policies.set name policy }
  | .view name ledger => { session with views := session.views.set name ledger }
  | .cursor name cursor => { session with cursors := session.cursors.set name cursor }

/-- Appends reports to a ledger. The ledger comes into being here even if there are none. -/
def extend (session : Session) (ledger : Option String) (added : List Report) : Session :=
  match ledger with
  | some name =>
      { session with ledgers := session.ledgers.set name ((session.ledger name).append added) }
  | none => session

/-- A change leaves every ledger as it was, by the cases of the change. -/
theorem ledger_apply (session : Session) (change : Change) (name : String)
    : (session.apply change).ledger name = session.ledger name := by
  cases change <;> rfl

theorem ledger_extend_self (session : Session) (name : String) (added : List Report)
    : (session.extend (some name) added).ledger name = (session.ledger name).append added := by
  simp [extend, ledger, Bindings.get?_set_self]

/-- Extending one ledger leaves every other as it was. -/
theorem ledger_extend_of_ne (session : Session) {name : String} {extended : Option String}
    (different : extended ≠ some name) (added : List Report)
    : (session.extend extended added).ledger name = session.ledger name := by
  cases extended with
  | none => rfl
  | some other =>
      have unequal : name ≠ other := fun same => different (congrArg some same.symm)
      simp [extend, ledger, Bindings.get?_set_of_ne _ unequal]

/-- The events of a verdict on a command: a report added under each new id, then the fault. -/
def events (session : Session) (command : Command) (verdict : Verdict) : List Event :=
  let firstId := ((command.ledger?).map session.nextId).getD 1
  let fault? := match verdict.outcome with
    | .ok _ => none
    | .error failure => failure.fault?
  (Ledger.numbered firstId verdict.added).map (fun (id, report) => Event.ofReport id report)
    ++ (fault?.map Event.ofFault).toList

def sizes (session : Session) : List (String × Nat) :=
  session.ledgers.entries.map fun (name, ledger) => (name, ledger.size)

end Session

/-- What a session gives back for a command. -/
structure Reply where
  outcome : Except Failure Answer
  sizes : List (String × Nat)
  /-- The lines that the command wrote to the journal. -/
  trace : List String

namespace Session

/-- The session after a verdict is carried out. -/
def after (session : Session) (command : Command) (verdict : Verdict) : Session :=
  (session.extend command.ledger? verdict.added).apply verdict.change

def step (session : Session) (command : Command) : Session × Reply :=
  let verdict := session.judge command
  let next := session.after command verdict
  (next, {
    outcome := verdict.outcome
    sizes := next.sizes
    trace := if session.tracing then (session.events command verdict).map Event.line else [] })

def run (session : Session) : List Command → Session × List Reply
  | [] => (session, [])
  | command :: rest =>
      let (next, reply) := session.step command
      let (last, replies) := next.run rest
      (last, reply :: replies)

end Session

end CompilerReports
