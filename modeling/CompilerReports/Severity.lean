import CompilerReports.Fault

/-! The severities of reports, from debugging output to fatal errors, and the severity that each
kind has by default. A category sorts its kinds into buckets; a kind in none of them gets the
category's fallback.
-/

namespace CompilerReports

/-- How grave a report is. -/
inductive Severity where
  | debug
  | trace
  | hint
  | warning
  | error
  | fatal
  deriving DecidableEq

namespace Severity

def all : List Severity := [.debug, .trace, .hint, .warning, .error, .fatal]

def name : Severity → String
  | .debug => "debug"
  | .trace => "trace"
  | .hint => "hint"
  | .warning => "warning"
  | .error => "error"
  | .fatal => "fatal"

def ofName? (name : String) : Option Severity := all.find? fun severity => severity.name == name

/-- The place of a severity in the order, counted from zero. -/
def rank : Severity → Nat
  | .debug => 0
  | .trace => 1
  | .hint => 2
  | .warning => 3
  | .error => 4
  | .fatal => 5

/-- How far the left severity lies above the right one. -/
def compare (left right : Severity) : Int := (left.rank : Int) - right.rank

/-- The rank under a name. A name of no severity ranks one below them all. -/
def rankOfName (name : String) : Int :=
  match ofName? name with
  | some severity => severity.rank
  | none => -1

/-- How far the left name ranks above the right one. -/
def compareNames (left right : String) : Int := rankOfName left - rankOfName right

/-- (nameReaches name threshold) holds when the name ranks no lower than the threshold. -/
def nameReaches (name threshold : String) : Bool := decide (0 ≤ compareNames name threshold)

/-- The list of severities is in order of rank, by its six entries. -/
theorem all_getElem_rank (severity : Severity)
    : all[severity.rank]? = some severity := by
  cases severity <;> decide

/-- A severity is found by its own name, by the six cases. -/
theorem ofName?_name (severity : Severity)
    : ofName? severity.name = some severity := by
  cases severity <;> decide

end Severity

/-- How a category sorts its kinds. A bucket that the category does not use is absent. -/
structure Buckets where
  fatal : Option (List String) := none
  error : Option (List String) := none
  warning : Option (List String) := none
  hint : Option (List String) := none
  fallback : Severity

namespace Buckets

/-- The kind lies in a bucket that is present. -/
def bucketHolds (bucket : Option (List String)) (kind : String) : Bool :=
  bucket.any fun kinds => kinds.contains kind

/-- The severity of a kind: the gravest bucket that holds it, or the fallback. -/
def severity (buckets : Buckets) (kind : String) : Severity :=
  if bucketHolds buckets.fatal kind then .fatal
  else if bucketHolds buckets.error kind then .error
  else if bucketHolds buckets.warning kind then .warning
  else if bucketHolds buckets.hint kind then .hint
  else buckets.fallback

end Buckets

namespace Category

def buckets : Category → Buckets
  | .lexer => {
      error := some Kind.lexerError
      warning := some ["lex-deprecated-octal-prefix"]
      hint := some ["lex-line-too-long"]
      fallback := .trace }
  | .parser => {
      error := some ["par-invalid-indentation"]
      hint := some ["par-name"]
      fallback := .trace }
  | .semantic => {
      error := some Kind.semanticError
      warning := some Kind.semanticWarning
      hint := some Kind.semanticHint
      fallback := .trace }
  | .command => { fallback := .trace }
  | .debug => { fallback := .debug }
  | .internal => {
      fatal := some ["int-unknown", "int-fatal", "int-ice"]
      fallback := .trace }
  | .backend => {
      error := some Kind.backendError
      hint := some Kind.backendHint
      fallback := .trace }
  | .external => {
      error := some Kind.externalError
      warning := some ["ext-deprecated"]
      fallback := .trace }

/-- The severity that the category gives a kind. -/
def severity (category : Category) (kind : String) : Severity :=
  category.buckets.severity kind

end Category

namespace Kind

/-- The severity of a kind before any override, where the kind is known. -/
def defaultSeverity? (kind : String) : Option Severity :=
  (Category.ofKind? kind).map fun category => category.severity kind

/-- The severity of a kind before any override; an unknown kind is a fault. -/
def defaultSeverity (kind : String) : Except Refusal Severity :=
  (Category.ofKind kind).map fun category => category.severity kind

/-- The kinds of a default severity, in their flat order. -/
def ofDefaultSeverity (severity : Severity) : List String :=
  all.filter fun kind => defaultSeverity? kind == some severity

end Kind

end CompilerReports
