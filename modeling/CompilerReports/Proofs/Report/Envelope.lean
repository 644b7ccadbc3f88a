import CompilerReports.Override
import CompilerReports.Proofs.Report.Minting

/-! The envelope of a report: what holds of it whatever its payload says. A report comes with the
one category that lists its kind, and its JSON form shows the declared fields of its site, its
location and its chain, and no others. Minting establishes the envelope, and a further
instantiation step keeps it.
-/

namespace CompilerReports

-----------------------------------------------------------------------------------------
-- The declared fields of what a report shows
-----------------------------------------------------------------------------------------

namespace Json

/-- A point with its declared fields and nothing else. -/
def IsPoint (value : Json) : Prop :=
  ∃ file line column,
    value = .object [("file", .text file), ("line", .number line), ("column", .number column)]

/-- A range with its declared fields and nothing else. -/
def IsRange (value : Json) : Prop :=
  ∃ file startLine endLine startColumn endColumn,
    value
      = .object [("file", .text file), ("startLine", .number startLine),
          ("endLine", .number endLine), ("startColumn", .number startColumn),
          ("endColumn", .number endColumn)]

/-- Line info: a point or a range, each under its kind. -/
def IsLineInfo (value : Json) : Prop :=
  (∃ point, point.IsPoint ∧ value = .object [("kind", .text "point"), ("point", point)])
  ∨ ∃ range, range.IsRange ∧ value = .object [("kind", .text "range"), ("range", range)]

/-- A symbol: a name and a kind, and a point where its location is known. -/
def IsSymbol (value : Json) : Prop :=
  ∃ name kind,
    value = .object [("name", .text name), ("kind", .text kind)]
    ∨ ∃ location,
        location.IsPoint
        ∧ value = .object [("name", .text name), ("kind", .text kind), ("location", location)]

/-- An instantiation step: of a symbol, or from a mere place. -/
def IsInstantiation (value : Json) : Prop :=
  (∃ location symbol,
    location.IsPoint ∧ symbol.IsSymbol
    ∧ value
      = .object
          [("kind", .text "instantiation-of"), ("location", location), ("entry", symbol)])
  ∨ ∃ location,
      location.IsPoint
      ∧ value = .object [("kind", .text "instantiation-from"), ("location", location)]

end Json

theorem Point.toJson_isPoint (point : Point)
    : point.toJson.IsPoint :=
  ⟨point.file, point.line, point.column, rfl⟩

theorem Range.toJson_isRange (range : Range)
    : range.toJson.IsRange :=
  ⟨range.file, range.startLine, range.endLine, range.startColumn, range.endColumn, rfl⟩

/-- Line info shows its point or its range, by its two cases. -/
theorem LineInfo.toJson_isLineInfo (info : LineInfo)
    : info.toJson.IsLineInfo := by
  cases info with
  | point place => exact Or.inl ⟨place.toJson, place.toJson_isPoint, rfl⟩
  | range stretch => exact Or.inr ⟨stretch.toJson, stretch.toJson_isRange, rfl⟩

/-- A symbol shows its location only where there is one. -/
theorem Symbol.toJson_isSymbol (symbol : Symbol)
    : symbol.toJson.IsSymbol := by
  obtain ⟨name, kind, location⟩ := symbol
  refine ⟨name, kind, ?_⟩
  cases location with
  | none => exact Or.inl rfl
  | some place => exact Or.inr ⟨place.toJson, place.toJson_isPoint, rfl⟩

/-- An instantiation step shows what its case declares. -/
theorem Instantiation.toJson_isInstantiation (step : Instantiation)
    : step.toJson.IsInstantiation := by
  cases step with
  | ofSymbol location symbol =>
      exact Or.inl ⟨location.toJson, symbol.toJson, location.toJson_isPoint,
        symbol.toJson_isSymbol, rfl⟩
  | fromPlace location => exact Or.inr ⟨location.toJson, location.toJson_isPoint, rfl⟩

namespace Report

/-- A report shows its location under its key, where it has one. -/
theorem toJson_location (report : Report)
    : report.toJson.field? "location" = report.location.map LineInfo.toJson := by
  obtain ⟨category, payload, site, location, context⟩ := report
  cases location <;> rfl

/-- A report shows its chain under its key, step by step. -/
theorem toJson_context (report : Report)
    : report.toJson.field? "context" = some (.list (report.context.map Instantiation.toJson)) := by
  obtain ⟨category, payload, site, location, context⟩ := report
  cases location <;> rfl

-----------------------------------------------------------------------------------------
-- The envelope
-----------------------------------------------------------------------------------------

/-- The envelope of a report. The name that the report shows as its category is that of one of
the eight; this category lists the report's kind, is found from the kind alone, and is the only
one that the report is of. What the report shows beside its payload has the declared fields
only. And without overrides the report is judged by its category as its kind is by default.
-/
structure Enveloped (report : Report) : Prop where
  named
    : ∃ name,
        report.toJson.field? "category" = some (.text name)
        ∧ Category.ofName? name = some report.category
  listed : report.kind ∈ report.category.kinds
  found : Category.ofKind report.kind = .ok report.category
  only : ∀ name, report.isOf name = true ↔ name = report.category.name
  site : ∃ point, report.toJson.field? "site" = some point ∧ point.IsPoint
  location : ∀ info, report.toJson.field? "location" = some info → info.IsLineInfo
  context
    : ∃ steps,
        report.toJson.field? "context" = some (.list steps)
        ∧ ∀ step ∈ steps, step.IsInstantiation
  severity : Kind.defaultSeverity report.kind = .ok (report.severity {})

/-- A report has its envelope as soon as its category lists its kind. Witness: no other category
lists the kind, and the declared fields are those of the report's parts.
-/
theorem enveloped_of_listed {report : Report} (listed : report.kind ∈ report.category.kinds)
    : report.Enveloped := by
  have found : Category.ofKind report.kind = .ok report.category := by
    simp only [Category.ofKind, Category.ofKind?_of_mem listed]
  refine {
    named := ⟨report.category.name, rfl, report.category.ofName?_name⟩
    listed := listed
    found := found
    only := ?_
    site := ⟨report.site.toJson, rfl, report.site.toJson_isPoint⟩
    location := ?_
    context := ⟨_, report.toJson_context, ?_⟩
    severity := ?_ }
  · intro name
    simp only [isOf, beq_iff_eq]
    exact eq_comm
  · intro info shown
    rw [toJson_location] at shown
    obtain ⟨given, _, rfl⟩ := Option.map_eq_some_iff.mp shown
    exact given.toJson_isLineInfo
  · intro step member
    obtain ⟨given, _, rfl⟩ := List.mem_map.mp member
    exact given.toJson_isInstantiation
  · rw [Kind.defaultSeverity, found]
    rfl

/-- A minted report has its envelope: it passed the gate of its category. -/
theorem enveloped_of_mint {draft : Draft} {report : Report} (minted : draft.mint = .ok report)
    : report.Enveloped := by
  obtain ⟨category, site, fits, rfl, _⟩ := Draft.eq_reportAt_of_mint minted
  exact enveloped_of_listed fits.listed

/-- A further instantiation step leaves the envelope as it was. -/
theorem Enveloped.within {report : Report} (enveloped : report.Enveloped) (step : Instantiation)
    : (report.within step).Enveloped :=
  enveloped_of_listed enveloped.listed

end Report

end CompilerReports
