import CompilerReports.Policy

/-! The commands of a session. Reports, policies, views and cursors are spoken of by name, and so
are ledgers; a command that makes something may bind a name to it.
-/

namespace CompilerReports

/-- Where a command takes its overrides from. -/
inductive Judging where
  | policy (name : String)
  | given (overrides : Overrides)

/-- What a command that emits is given for its ledger: the ledger by name, or a context that holds
the ledger among other things.
-/
inductive Carrier where
  | direct (ledger : String)
  | context (ledger : String)

/-- The ledger that a carrier leads to. -/
def Carrier.ledger : Carrier → String
  | .direct ledger => ledger
  | .context ledger => ledger

/-- Which reports a command weighs. -/
inductive Source where
  | ledger (name : String)
  | reports (names : List String)

inductive Command where
  /-- Sets the flag that enables tracing. -/
  | setTracing (flag : Option String)
  | mint (name : Option String) (draft : Draft)
  /-- Puts an instantiation step in front of a report's chain. -/
  | within (name : Option String) (report : String) (step : Instantiation)
  | kindOf (report : String)
  | describe (report : String)
  | isOf (report category : String)
  | add (ledger report : String)
  /-- Looks a report up by any number. -/
  | find (ledger : String) (id : Binary64) (name : Option String)
  /-- Looks a report up by a number that is first checked to be an id. -/
  | findChecked (ledger : String) (id : Binary64) (name : Option String)
  /-- Mints a report and adds it to a ledger. -/
  | emit (carrier : Carrier) (draft : Draft)
  /-- Mints a report, adds it to a ledger and gives the compilation up. -/
  | abort (carrier : Carrier) (draft : Draft)
  | size (ledger : String)
  | reports (ledger : String)
  | entries (ledger : String)
  | kinds (ledger : String)
  /-- Opens a view of a ledger, which shows the ledger as it is when it is read. -/
  | openView (name ledger : String)
  /-- Reads the kinds that a view shows. -/
  | readView (view : String)
  /-- Opens a cursor at the start of a ledger. -/
  | openCursor (name ledger : String) (numbered : Bool)
  /-- Takes the next report from a cursor. -/
  | next (cursor : String)
  /-- Resolves a policy from the kind names given to each switch. -/
  | resolve (name : Option String) (asError asWarning : List String)
  /-- Emits a report for each name that a policy rejected. -/
  | emitRejected (ledger policy : String) (site : Option Point) (stack : Option String)
  | severity (report : String) (judging : Judging)
  | severities (ledger : String) (judging : Judging)
  | tally (source : Source) (judging : Judging)
  | greatest (source : Source) (judging : Judging)

namespace Command

/-- The ledger that a command names. Naming a ledger brings it into being, even where the command
then fails.
-/
def ledger? : Command → Option String
  | .add ledger _ | .find ledger _ _ | .findChecked ledger _ _ | .size ledger
  | .reports ledger | .entries ledger | .kinds ledger | .openView _ ledger
  | .openCursor _ ledger _ | .emitRejected ledger _ _ _ | .severities ledger _
  | .tally (.ledger ledger) _ | .greatest (.ledger ledger) _ =>
      some ledger
  | .emit carrier _ | .abort carrier _ => some carrier.ledger
  | _ => none

end Command

end CompilerReports
