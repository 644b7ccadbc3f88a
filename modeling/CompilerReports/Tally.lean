import CompilerReports.Override

/-! How grave a sequence of reports is: how many reports have each severity, and the greatest
severity among them.
-/

namespace CompilerReports

/-- A number of reports for each severity. -/
structure Tally where
  debug : Nat := 0
  trace : Nat := 0
  hint : Nat := 0
  warning : Nat := 0
  error : Nat := 0
  fatal : Nat := 0
  deriving DecidableEq

namespace Tally

def count (tally : Tally) : Severity → Nat
  | .debug => tally.debug
  | .trace => tally.trace
  | .hint => tally.hint
  | .warning => tally.warning
  | .error => tally.error
  | .fatal => tally.fatal

def add (tally : Tally) : Severity → Tally
  | .debug => { tally with debug := tally.debug + 1 }
  | .trace => { tally with trace := tally.trace + 1 }
  | .hint => { tally with hint := tally.hint + 1 }
  | .warning => { tally with warning := tally.warning + 1 }
  | .error => { tally with error := tally.error + 1 }
  | .fatal => { tally with fatal := tally.fatal + 1 }

/-- The tally of a sequence of reports under overrides. -/
def ofReports (overrides : Overrides) (reports : List Report) : Tally :=
  reports.foldl (fun tally report => tally.add (report.severity overrides)) {}

def toJson (tally : Tally) : Json :=
  .object (Severity.all.map fun severity => (severity.name, Json.ofNat (tally.count severity)))

/-- Adding a report counts it under its severity and nowhere else, by the cases of both. -/
theorem count_add (tally : Tally) (severity other : Severity)
    : (tally.add severity).count other
      = tally.count other + if other = severity then 1 else 0 := by
  cases severity <;> cases other <;> rfl

end Tally

namespace Severity

/-- The greater of a severity so far, if any, and a further one. -/
def raise (greatest : Option Severity) (next : Severity) : Option Severity :=
  match greatest with
  | none => some next
  | some severity => if 0 < next.compare severity then some next else some severity

/-- The greatest severity in a sequence of reports under overrides, if there is a report. -/
def greatest? (overrides : Overrides) (reports : List Report) : Option Severity :=
  reports.foldl (fun greatest report => raise greatest (report.severity overrides)) none

end Severity

end CompilerReports
