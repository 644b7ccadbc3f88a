import CompilerReports.Report
import CompilerReports.Severity

/-! Severity overrides: kinds to be judged as errors or as warnings, whatever their default. A
kind named on both sides is an error.
-/

namespace CompilerReports

/-- The kinds whose severity is overridden. -/
structure Overrides where
  asError : List String := []
  asWarning : List String := []
  deriving DecidableEq

/-- The severity of a report under overrides; its category decides where neither names it. -/
def Report.severity (overrides : Overrides) (report : Report) : Severity :=
  if overrides.asError.contains report.kind then .error
  else if overrides.asWarning.contains report.kind then .warning
  else report.category.severity report.kind

def Overrides.toJson (overrides : Overrides) : Json :=
  .object [("asError", Json.ofTexts overrides.asError),
    ("asWarning", Json.ofTexts overrides.asWarning)]

end CompilerReports
