import CompilerReports.Category
import CompilerReports.FileUrl
import CompilerReports.Position

/-! Faults and refusals. A fault marks a misuse of the reports by their caller: a kind outside
its category, an unknown kind, or an id that names no report. An operation is refused for a
fault, for a name without the bounds that are needed, or for a stack whose file URL names no
path.
-/

namespace CompilerReports

-----------------------------------------------------------------------------------------
-- Faults

/-- The JSON form of what is found in the table of bounds. One of the inherited members is an object
that shows no fields; the others are functions, which have no JSON form.
-/
def Category.Bounds.toJson? : Bounds → Option Json
  | .listed kinds => some (Json.ofTexts kinds)
  | .inherited "__proto__" => some (.object [])
  | .inherited _ => none

/-- A misuse of the reports by their caller. Ids and sizes are the numbers that were given. -/
inductive Fault where
  | kindOutsideCategory (category kind : String) (range : Category.Bounds)
  | unknownKind (kind : String)
  | unknownId (id size : Binary64)
  | invalidId (id : Binary64)
  deriving DecidableEq

namespace Fault

def tag : Fault → String
  | .kindOutsideCategory .. => "kind-outside-category"
  | .unknownKind .. => "unknown-report-kind"
  | .unknownId .. => "unknown-report-id"
  | .invalidId .. => "invalid-report-id"

def message : Fault → String
  | .kindOutsideCategory category kind range =>
      "report kind " ++ kind ++ " is outside the " ++ category ++ " range [" ++ range.text 0
        ++ " .. " ++ range.text 1 ++ "]"
  | .unknownKind kind => "unknown report kind " ++ kind
  | .unknownId id size =>
      "report id " ++ id.text ++ " was never issued by this ledger (size " ++ size.text ++ ")"
  | .invalidId id => "report ids are positive integers, got " ++ id.text

def toJson (fault : Fault) : Json :=
  .object (("kind", .text fault.tag) ::
    match fault with
    | .kindOutsideCategory category kind range =>
        [("category", .text category), ("reportKind", .text kind)]
          ++ (range.toJson?.map fun shown => ("range", shown)).toList
    | .unknownKind kind => [("reportKind", .text kind)]
    | .unknownId id size => [("id", .number id), ("size", .number size)]
    | .invalidId id => [("value", .number id)])

/-- Reads a fault by its tag. The range of the fault can list any number of kinds. -/
def ofJson? (value : Json) : Option Fault :=
  match value.field? "kind" with
  | some (.text "kind-outside-category") => do
      let category ← value.textAt? "category"
      let kind ← value.textAt? "reportKind"
      let kinds ← (value.field? "range").bind Json.texts?
      return .kindOutsideCategory category kind (.listed kinds)
  | some (.text "unknown-report-kind") => (value.textAt? "reportKind").map .unknownKind
  | some (.text "unknown-report-id") => do
      let id ← value.numberAt? "id"
      let size ← value.numberAt? "size"
      return .unknownId id size
  | some (.text "invalid-report-id") => (value.numberAt? "value").map .invalidId
  | _ => none

end Fault

-----------------------------------------------------------------------------------------
-- Refusals

/-- Why an operation has no result. -/
inductive Refusal where
  | fault (misuse : Fault)
  | noCategory (name : String)
  | url (cause : FileUrl.Error)
  deriving DecidableEq

namespace Refusal

def fault? : Refusal → Option Fault
  | .fault misuse => some misuse
  | _ => none

end Refusal

namespace Category

/-- The category of a kind; an unknown kind is a fault. -/
def ofKind (kind : String) : Except Refusal Category :=
  match ofKind? kind with
  | some category => .ok category
  | none => .error (.fault (.unknownKind kind))

/-- The category of the given name if it owns the kind. An unknown kind is owned by none, whatever the
name; for a known kind the name must be that of a category.
-/
def owning? (name kind : String) : Except Refusal (Option Category) :=
  if Kind.isKnown kind then
    match ofName? name with
    | some category => .ok (if category.owns kind then some category else none)
    | none => .error (.noCategory name)
  else
    .ok none

/-- Whether a kind belongs to the category of the given name. -/
def ownsByName (name kind : String) : Except Refusal Bool :=
  (owning? name kind).map Option.isSome

/-- Why a kind is refused that does not belong to the category of the given name. The fault shows
what the table of bounds has under the name; where it has nothing, there is no fault to show.
-/
def outside (name kind : String) : Refusal :=
  match boundsUnder? name with
  | some range => .fault (.kindOutsideCategory name kind range)
  | none => .noCategory name

/-- The category of the given name, if the kind belongs to it. Whether it does is asked first; what
the table of bounds has under the name counts only for a kind that does not.
-/
def accept (name kind : String) : Except Refusal Category :=
  match owning? name kind with
  | .error refusal => .error refusal
  | .ok (some category) => .ok category
  | .ok none => .error (outside name kind)

end Category

end CompilerReports
