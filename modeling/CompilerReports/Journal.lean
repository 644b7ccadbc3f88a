import CompilerReports.Json.Printer
import CompilerReports.Ledger
import CompilerReports.Text.Blank
import CompilerReports.Text.Casing

/-! The trace journal: one line of text for each report that is added and for each fault, written
only where tracing is enabled.
-/

namespace CompilerReports

-----------------------------------------------------------------------------------------
-- The flag

namespace Tracing

def enablingWords : List String := ["1", "true", "yes"]

/-- (isEnabled flag) holds when the flag is set to an enabling word, in any case and between any
blanks.
-/
def isEnabled : Option String → Bool
  | none => false
  | some flag =>
      enablingWords.contains (String.ofList (Text.lower (Text.trimBlanks flag.toList)))

end Tracing

-----------------------------------------------------------------------------------------
-- Events

/-- What the journal records. -/
inductive Event where
  | added (id : Nat) (category kind site : String)
  | faulted (tag message : String)
  deriving DecidableEq

namespace Event

/-- The event of a report that is added under an id. -/
def ofReport (id : Nat) (report : Report) : Event :=
  .added id report.category.name report.kind report.site.text

def ofFault (fault : Fault) : Event := .faulted fault.tag fault.message

def toJson : Event → Json
  | .added id category kind site =>
      .object [("event", .text "report-added"), ("id", Json.ofNat id),
        ("category", .text category), ("kind", .text kind), ("site", .text site)]
  | .faulted tag message =>
      .object [("event", .text "consistency-fault"), ("fault", .text tag),
        ("message", .text message)]

/-- What every line of the journal starts with. -/
def lineStart : String := "[compiler:reports] "

def line (event : Event) : String := lineStart ++ event.toJson.render

end Event

end CompilerReports
