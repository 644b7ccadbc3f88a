import CompilerReports.Override

/-! Policies: overrides resolved from the kind names of a command line. Known names form the
overrides, each once and in the order of arrival; every other name becomes the payload of a
report about the command line, for the caller to emit.
-/

namespace CompilerReports

/-- The side of a policy that a kind name is given to. -/
inductive Switch where
  | asError
  | asWarning
  deriving DecidableEq

def Switch.name : Switch → String
  | .asError => "asError"
  | .asWarning => "asWarning"

/-- A resolved policy: its overrides, and the payloads for the names that are no kinds. -/
structure Policy where
  overrides : Overrides
  rejected : List Payload

namespace Policy

/-- The kind of the reports about rejected names. -/
def rejectionKind : String := "ext-invalid-warning"

/-- The payload of the report about a name that is no kind. -/
def rejection (side : Switch) (name : String) : Payload where
  kind := rejectionKind
  details := [("cmdlineSwitch", .text side.name), ("cmdlineProvided", .text name),
    ("cmdlineAllowed", .list []), ("cmdlineError", .text ("unknown report kind " ++ name))]

/-- One side of a policy under resolution: the kinds accepted and the names rejected so far. -/
structure Side where
  kinds : List String := []
  rejected : List String := []

/-- Takes one more name: a known kind joins the kinds unless it is among them already. -/
def Side.take (side : Side) (name : String) : Side :=
  if Kind.isKnown name then
    if side.kinds.contains name then side else { side with kinds := side.kinds ++ [name] }
  else
    { side with rejected := side.rejected ++ [name] }

/-- The side that a sequence of names gives. -/
def Side.ofNames (names : List String) : Side := names.foldl Side.take {}

/-- The policy of the names given to each switch. -/
def resolve (asError asWarning : List String) : Policy :=
  let errors := Side.ofNames asError
  let warnings := Side.ofNames asWarning
  { overrides := { asError := errors.kinds, asWarning := warnings.kinds }
    rejected := errors.rejected.map (rejection .asError)
      ++ warnings.rejected.map (rejection .asWarning) }

def empty : Policy := resolve [] []

/-- The names that a value gives to a switch: the texts of a list, or the characters of a text,
each as a name of its own.
-/
def names? : Json → Option (List String)
  | .text value => some (value.toList.map fun c => String.ofList [c])
  | value => value.texts?

/-- The names under a key, none where the key is absent. -/
def namesAt? (key : String) (value : Json) : Option (List String) :=
  match value.given? key with
  | some found => names? found
  | none => some []

/-- The policy of an input with a field for each switch. -/
def ofJson? (value : Json) : Option Policy := do
  let asError ← namesAt? Switch.asError.name value
  let asWarning ← namesAt? Switch.asWarning.name value
  return resolve asError asWarning

def toJson (policy : Policy) : Json :=
  .object [("policy", policy.overrides.toJson),
    ("rejected", .list (policy.rejected.map Payload.toJson))]

end Policy

end CompilerReports
