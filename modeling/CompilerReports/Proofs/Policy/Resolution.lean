import CompilerReports.Proofs.Session.Envelope
import CompilerReports.Tally

/-! Resolving a policy loses no effect. Resolution drops unknown names and repetitions, and neither
can matter: a report that a session can hold has a known kind, and a severity asks for nothing
but membership. So what decides a severity is which known names are given to be errors, and which
of the others are given to be warnings.
-/

namespace CompilerReports

-----------------------------------------------------------------------------------------
-- The kinds that resolution accepts
-----------------------------------------------------------------------------------------

namespace Policy

/-- Taking a name adds it to the kinds if it is known, and adds nothing else. -/
theorem Side.mem_kinds_take (side : Side) (name kind : String)
    : kind ∈ (side.take name).kinds
      ↔ kind ∈ side.kinds ∨ kind = name ∧ Kind.isKnown kind = true := by
  unfold take
  split
  · rename_i known
    split
    · rename_i present
      have already : name ∈ side.kinds := by simpa using present
      constructor
      · exact Or.inl
      · rintro (member | ⟨rfl, _⟩)
        · exact member
        · exact already
    · simp only [List.mem_append, List.mem_singleton]
      constructor
      · rintro (member | rfl)
        · exact Or.inl member
        · exact Or.inr ⟨rfl, known⟩
      · rintro (member | ⟨rfl, _⟩)
        · exact Or.inl member
        · exact Or.inr rfl
  · rename_i unknown
    constructor
    · exact Or.inl
    · rintro (member | ⟨rfl, known⟩)
      · exact member
      · exact absurd known unknown

/-- Taking names one after the other adds the known ones, by induction on the names. -/
theorem Side.mem_kinds_foldl_take (side : Side) (names : List String) (kind : String)
    : kind ∈ (names.foldl Side.take side).kinds
      ↔ kind ∈ side.kinds ∨ kind ∈ names ∧ Kind.isKnown kind = true := by
  induction names generalizing side with
  | nil => simp
  | cons name rest ih =>
      rw [List.foldl_cons, ih, Side.mem_kinds_take, List.mem_cons, or_assoc, ← or_and_right]

/-- The kinds of a side are the known names among those given. -/
theorem Side.mem_kinds_ofNames (names : List String) (kind : String)
    : kind ∈ (ofNames names).kinds ↔ kind ∈ names ∧ Kind.isKnown kind = true := by
  rw [ofNames, Side.mem_kinds_foldl_take]
  simp

end Policy

-----------------------------------------------------------------------------------------
-- Severities depend on membership alone
-----------------------------------------------------------------------------------------

/-- Overrides that agree on a report's kind, the warnings only where the kind is no error, give the
report the same severity.
-/
theorem Report.severity_congr {report : Report} {left right : Overrides}
    (errors : report.kind ∈ left.asError ↔ report.kind ∈ right.asError)
    (warnings
      : report.kind ∉ left.asError
        → (report.kind ∈ left.asWarning ↔ report.kind ∈ right.asWarning))
    : report.severity left = report.severity right := by
  simp only [severity, List.contains_iff_mem]
  by_cases error : report.kind ∈ left.asError
  · rw [if_pos error, if_pos (errors.mp error)]
  · rw [if_neg error, if_neg (mt errors.mpr error)]
    simp only [warnings error]

/-- A tally counts the severities of its reports and asks for nothing else. -/
theorem Tally.ofReports_eq (overrides : Overrides) (reports : List Report)
    : ofReports overrides reports = (reports.map (Report.severity overrides)).foldl add {} := by
  rw [List.foldl_map]
  rfl

/-- So does the greatest severity. -/
theorem Severity.greatest?_eq (overrides : Overrides) (reports : List Report)
    : greatest? overrides reports
      = (reports.map (Report.severity overrides)).foldl raise none := by
  rw [List.foldl_map]
  rfl

-----------------------------------------------------------------------------------------
-- Resolution and the severities of reports
-----------------------------------------------------------------------------------------

/-- A report is reachable when some run leads to a session that holds it. -/
def Report.Reachable (report : Report) : Prop :=
  ∃ session : Session, session.Reachable ∧ session.Holds report

/-- The kind of a reachable report is known, since its category lists it. -/
theorem Report.Reachable.isKnown {report : Report} (reachable : report.Reachable)
    : Kind.isKnown report.kind = true := by
  obtain ⟨session, reached, held⟩ := reachable
  exact Category.isKnown_of_mem (reached.enveloped held).listed

namespace Policy

/-- A report of a known kind has the same severity under a resolved policy as under the names that
the policy was resolved from.
-/
theorem severity_resolve {report : Report} (known : Kind.isKnown report.kind = true)
    (asError asWarning : List String)
    : report.severity (resolve asError asWarning).overrides
      = report.severity { asError, asWarning } := by
  apply Report.severity_congr
  · simp only [resolve, Side.mem_kinds_ofNames, known, and_true]
  · intro _
    simp only [resolve, Side.mem_kinds_ofNames, known, and_true]

/-- Resolution loses no effect. Reachable reports have the same severities, the same tally and the
same greatest severity under a resolved policy as under the given names, unknown ones and
repetitions included. And two inputs give every report the same severity when they give the same
known names to be errors and, those aside, the same known names to be warnings.
-/
theorem resolve_keeps_effect (asError asWarning : List String)
    : let resolved := (resolve asError asWarning).overrides
      let given : Overrides := { asError, asWarning }
      (∀ report : Report, report.Reachable → report.severity resolved = report.severity given)
      ∧ (∀ reports : List Report,
          (∀ report ∈ reports, report.Reachable)
          → Tally.ofReports resolved reports = Tally.ofReports given reports
            ∧ Severity.greatest? resolved reports = Severity.greatest? given reports)
      ∧ ∀ otherErrors otherWarnings : List String,
          (∀ kind, Kind.isKnown kind = true → (kind ∈ asError ↔ kind ∈ otherErrors))
          → (∀ kind,
              Kind.isKnown kind = true
              → (kind ∈ asWarning ∧ kind ∉ asError
                ↔ kind ∈ otherWarnings ∧ kind ∉ otherErrors))
          → ∀ report : Report,
              report.severity resolved
              = report.severity (resolve otherErrors otherWarnings).overrides := by
  intro resolved given
  have single : ∀ report : Report, report.Reachable
      → report.severity resolved = report.severity given :=
    fun report reachable => severity_resolve reachable.isKnown asError asWarning
  refine ⟨single, ?_, ?_⟩
  · intro reports reachable
    have each : reports.map (Report.severity resolved) = reports.map (Report.severity given) :=
      List.map_congr_left fun report member => single report (reachable report member)
    simp only [Tally.ofReports_eq, Severity.greatest?_eq, each, and_self]
  · intro otherErrors otherWarnings errors warnings report
    apply Report.severity_congr
    · simp only [resolved, resolve, Side.mem_kinds_ofNames]
      exact and_congr_left (errors report.kind)
    · intro allowed
      simp only [resolved, resolve, Side.mem_kinds_ofNames] at allowed ⊢
      refine and_congr_left fun known => ?_
      have spared : report.kind ∉ asError := fun member => allowed ⟨member, known⟩
      have others : report.kind ∉ otherErrors := fun member =>
        spared ((errors report.kind known).mpr member)
      simpa only [spared, others, not_false_eq_true, and_true] using warnings report.kind known

/-- A report that was emitted is judged alike by a policy and by the names it was resolved from, of
which one is no kind and one comes twice; and so it is by a policy from the one name that counts.
-/
theorem resolve_keeps_effect_unknown_name
    : let draft : Draft := { category := "cmd", payload := ⟨"cmd-cc", []⟩, site := some .unknown }
      let report : Report := ⟨.command, ⟨"cmd-cc", []⟩, .unknown, none, []⟩
      let asError := ["no-kind"]
      let asWarning := ["cmd-cc", "no-kind", "cmd-cc"]
      (Session.finish {} [.emit (.direct "main") draft]).Holds report
      ∧ report.severity (resolve asError asWarning).overrides
        = report.severity { asError, asWarning }
      ∧ report.severity (resolve asError asWarning).overrides
        = report.severity (resolve [] ["cmd-cc"]).overrides := by
  intro draft report asError asWarning
  have stored : ((Session.finish {} [.emit (.direct "main") draft]).ledger "main").reports
      = [report] := rfl
  have held : (Session.finish {} [.emit (.direct "main") draft]).Holds report :=
    .stored (stored ▸ List.mem_singleton_self report)
  have reachable : report.Reachable := ⟨_, ⟨_, rfl⟩, held⟩
  obtain ⟨single, _, alike⟩ := resolve_keeps_effect asError asWarning
  refine ⟨held, single report reachable, alike [] ["cmd-cc"] ?_ ?_ report⟩
  · intro kind known
    have other : kind ≠ "no-kind" := by
      rintro rfl
      cases known
    simp [asError, other]
  · intro kind known
    have other : kind ≠ "no-kind" := by
      rintro rfl
      cases known
    simp [asError, asWarning, other]

end Policy

end CompilerReports
