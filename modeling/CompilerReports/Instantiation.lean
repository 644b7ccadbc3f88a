import CompilerReports.Position

/-! Instantiation steps: how the generic code that a report is about came to be instantiated. A
chain of steps is ordered with the outermost, and so the oldest, step first.
-/

namespace CompilerReports

/-- A symbol as a reader of reports sees it. -/
structure Symbol where
  name : String
  kind : String
  location : Option Point
  deriving DecidableEq

namespace Symbol

/-- The JSON form of a symbol; an unknown location is left out. -/
def toJson (symbol : Symbol) : Json :=
  .object ([("name", .text symbol.name), ("kind", .text symbol.kind)]
    ++ (symbol.location.map fun point => ("location", point.toJson)).toList)

/-- Reads a symbol. A location that is null counts as absent; further fields are dropped. -/
def ofJson? (value : Json) : Option Symbol := do
  let name ← value.textAt? "name"
  let kind ← value.textAt? "kind"
  match value.given? "location" with
  | none => return { name, kind, location := none }
  | some found =>
      let point ← Point.ofJson? found
      return { name, kind, location := some point }

/-- Reading the JSON form of a symbol gives the symbol back. -/
theorem ofJson?_toJson (symbol : Symbol)
    : ofJson? symbol.toJson = some symbol := by
  obtain ⟨name, kind, location⟩ := symbol
  cases location <;> rfl

end Symbol

/-- One step of the chain that led to a report: the instantiation of a symbol, or a place from
which the next step was reached.
-/
inductive Instantiation where
  | ofSymbol (location : Point) (symbol : Symbol)
  | fromPlace (location : Point)
  deriving DecidableEq

namespace Instantiation

def toJson : Instantiation → Json
  | .ofSymbol location symbol =>
      .object [("kind", .text "instantiation-of"), ("location", location.toJson),
        ("entry", symbol.toJson)]
  | .fromPlace location =>
      .object [("kind", .text "instantiation-from"), ("location", location.toJson)]

/-- Reads a step. A kind other than that of an instantiated symbol is read as a mere place. -/
def ofJson? (value : Json) : Option Instantiation := do
  let location ← (value.field? "location").bind Point.ofJson?
  match value.field? "kind" with
  | some (.text "instantiation-of") =>
      let symbol ← (value.field? "entry").bind Symbol.ofJson?
      return .ofSymbol location symbol
  | _ => return .fromPlace location

theorem ofJson?_toJson (step : Instantiation)
    : ofJson? step.toJson = some step := by
  cases step with
  | ofSymbol location symbol =>
      have read := Symbol.ofJson?_toJson symbol
      simp only [ofJson?, toJson, Json.field?, List.lookup_cons]
      simp [Point.ofJson?_toJson, read]
  | fromPlace location => rfl

end Instantiation

end CompilerReports
