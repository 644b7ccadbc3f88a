import CompilerReports.Policy
import CompilerReports.Tally

/-! What a session's commands answer, and why they fail. -/

namespace CompilerReports

/-- The answer of a command that succeeds. -/
inductive Answer where
  /-- The command had nothing to say. -/
  | silent
  | truth (value : Bool)
  | kind (name : String)
  | report (report : Report)
  | reports (reports : List Report)
  | entries (entries : List (Nat × Report))
  | kinds (names : List String)
  | id (id : Nat)
  | ids (ids : List Nat)
  | size (size : Nat)
  /-- A cursor has no more reports. -/
  | finished
  /-- A cursor yields a report, with the report's id if the cursor is numbered. -/
  | yielded (id : Option Nat) (report : Report)
  | policy (policy : Policy)
  | severity (severity : Severity)
  | severities (severities : List Severity)
  | tally (tally : Tally)
  | greatest (severity : Option Severity)

inductive Failure where
  | refused (refusal : Refusal)
  /-- The compilation was given up on a report, which the ledger keeps. -/
  | aborted (ledger : String) (id : Nat) (report : Report)
  | unbound (name : String)

namespace Failure

def fault? : Failure → Option Fault
  | .refused refusal => refusal.fault?
  | _ => none

def abortMessage (id : Nat) (report : Report) : String :=
  "compilation aborted by " ++ report.kind ++ " report #" ++ (Binary64.ofNat id).text
    ++ " raised at " ++ report.site.text

end Failure

namespace Answer

def entryJson (entry : Nat × Report) : Json :=
  .list [Json.ofNat entry.1, entry.2.toJson]

def severityJson (severity : Severity) : Json := .text severity.name

/-- The JSON form of an answer. What a cursor yields is shown by its kind. -/
def toJson : Answer → Json
  | .silent => .null
  | .truth value => .bool value
  | .kind value => .text value
  | .report value => value.toJson
  | .reports values => .list (values.map Report.toJson)
  | .entries values => .list (values.map entryJson)
  | .kinds values => Json.ofTexts values
  | .id value => Json.ofNat value
  | .ids values => .list (values.map Json.ofNat)
  | .size value => Json.ofNat value
  | .finished => .object [("done", .bool true)]
  | .yielded number value =>
      .object (("done", .bool false)
        :: (number.map fun n => ("id", Json.ofNat n)).toList
        ++ [("kind", .text value.kind)])
  | .policy value => value.toJson
  | .severity value => severityJson value
  | .severities values => .list (values.map severityJson)
  | .tally value => value.toJson
  | .greatest value => (value.map severityJson).getD .null

end Answer

end CompilerReports
