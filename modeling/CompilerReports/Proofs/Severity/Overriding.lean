import CompilerReports.Proofs.Severity.Weighing

/-! Overrides act monotonically. To name more kinds as errors moves reports to errors only, and to
name more kinds as warnings moves them to warnings only, since a kind named on both sides is an
error. What holds of every report carries over to the tally by counting.
-/

namespace CompilerReports

/-- From some overrides to others the reports move to one severity only. So its count does not fall,
no other count rises, and the total stays.
-/
structure MovesTo (severity : Severity) (before after : Overrides) (reports : List Report)
    : Prop where
  only
    : ∀ report ∈ reports,
        report.severity after = report.severity before ∨ report.severity after = severity
  gains
    : (Tally.ofReports before reports).count severity
      ≤ (Tally.ofReports after reports).count severity
  loses
    : ∀ other,
        other ≠ severity
        → (Tally.ofReports after reports).count other
          ≤ (Tally.ofReports before reports).count other
  total : (Tally.ofReports after reports).total = (Tally.ofReports before reports).total

/-- Reports that each stay or move to one severity do so in the tally. Witness: what has the
severity before has it after, and what has another one after has had it before.
-/
theorem MovesTo.of_each {severity : Severity} {before after : Overrides} {reports : List Report}
    (each
      : ∀ report ∈ reports,
          report.severity after = report.severity before ∨ report.severity after = severity)
    : MovesTo severity before after reports where
  only := each
  gains := by
    rw [Tally.count_ofReports, Tally.count_ofReports]
    refine List.countP_mono_left fun report member had => ?_
    rw [decide_eq_true_eq] at had ⊢
    rcases each report member with stays | moves
    · exact stays.trans had
    · exact moves
  loses := by
    intro other different
    rw [Tally.count_ofReports, Tally.count_ofReports]
    refine List.countP_mono_left fun report member has => ?_
    rw [decide_eq_true_eq] at has ⊢
    rcases each report member with stays | moves
    · exact stays.symm.trans has
    · exact absurd (has.symm.trans moves) different
  total := by
    rw [Tally.total_ofReports, Tally.total_ofReports]

namespace Report

variable {asError asWarning more : List String}

/-- Where more kinds are errors, a report stays or becomes an error. -/
theorem severity_of_moreErrors (report : Report) (errors : asError ⊆ more)
    : let before := report.severity { asError, asWarning }
      let after := report.severity { asError := more, asWarning }
      after = before ∨ after = .error := by
  simp only [severity, List.contains_iff_mem]
  by_cases named : report.kind ∈ more
  · exact Or.inr (if_pos named)
  · have unnamed : report.kind ∉ asError := fun member => named (errors member)
    rw [if_neg named, if_neg unnamed]
    exact Or.inl rfl

/-- Where more kinds are warnings, a report stays or becomes a warning; it stays if its kind is
named as an error.
-/
theorem severity_of_moreWarnings (report : Report) (warnings : asWarning ⊆ more)
    : let before := report.severity { asError, asWarning }
      let after := report.severity { asError, asWarning := more }
      after = before ∨ after = .warning := by
  simp only [severity, List.contains_iff_mem]
  by_cases error : report.kind ∈ asError
  · rw [if_pos error]
    exact Or.inl (if_pos error).symm
  · rw [if_neg error, if_neg error]
    by_cases named : report.kind ∈ more
    · exact Or.inr (if_pos named)
    · have unnamed : report.kind ∉ asWarning := fun member => named (warnings member)
      rw [if_neg named, if_neg unnamed]
      exact Or.inl rfl

/-- Overrides make a report an error or a warning, or leave it as it is by default. -/
theorem severity_of_overrides (report : Report) (overrides : Overrides)
    : report.severity overrides = report.severity {}
      ∨ report.severity overrides = .error
      ∨ report.severity overrides = .warning := by
  let demoted : Overrides := { overrides with asError := [] }
  have errors : report.severity overrides = report.severity demoted
      ∨ report.severity overrides = .error :=
    report.severity_of_moreErrors (List.nil_subset overrides.asError)
  have warnings : report.severity demoted = report.severity {}
      ∨ report.severity demoted = .warning :=
    report.severity_of_moreWarnings (List.nil_subset overrides.asWarning)
  rcases errors with stays | error
  · rw [stays]
    exact warnings.imp_right Or.inr
  · exact Or.inr (Or.inl error)

end Report

/-- No overrides raise the count of a severity other than error and warning above its default. -/
theorem Tally.count_le_default (overrides : Overrides) (reports : List Report) {severity : Severity}
    (noError : severity ≠ .error) (noWarning : severity ≠ .warning)
    : (ofReports overrides reports).count severity ≤ (ofReports {} reports).count severity := by
  rw [count_ofReports, count_ofReports]
  refine List.countP_mono_left fun report _ has => ?_
  rw [decide_eq_true_eq] at has ⊢
  rcases report.severity_of_overrides overrides with stays | error | warning
  · exact stays.symm.trans has
  · exact absurd (has.symm.trans error) noError
  · exact absurd (has.symm.trans warning) noWarning

/-- Overrides act monotonically on any reports. Where more kinds are named as errors, severities
change to error only: there are no fewer errors, and no more of anything else. Where more kinds are
named as warnings, severities change to warning only, of errors and fatal reports too. The total
does not change. And under no overrides are there more reports of another severity than by default.
-/
theorem overrides_act_monotonically (reports : List Report)
    {asError moreErrors asWarning moreWarnings : List String} (errors : asError ⊆ moreErrors)
    (warnings : asWarning ⊆ moreWarnings)
    : MovesTo .error { asError, asWarning } { asError := moreErrors, asWarning } reports
      ∧ MovesTo .warning { asError, asWarning } { asError, asWarning := moreWarnings } reports
      ∧ ∀ overrides : Overrides,
          ∀ severity ∈ [Severity.debug, .trace, .hint, .fatal],
            (Tally.ofReports overrides reports).count severity
            ≤ (Tally.ofReports {} reports).count severity := by
  refine ⟨.of_each fun report _ => report.severity_of_moreErrors errors,
    .of_each fun report _ => report.severity_of_moreWarnings warnings, ?_⟩
  intro overrides severity member
  refine Tally.count_le_default overrides reports ?_ ?_
  · rintro rfl
    simp at member
  · rintro rfl
    simp at member

/-- A kind that is an error already and an internal failure that is fatal by default. To name the
failure as an error takes a fatal report away, and so does naming both kinds as warnings, by which
the first kind stays an error.
-/
theorem overrides_act_monotonically_fatal_demoted
    : let command : Report := ⟨.command, ⟨"cmd-cc", []⟩, .unknown, none, []⟩
      let failure : Report := ⟨.internal, ⟨"int-ice", []⟩, .unknown, none, []⟩
      let reports := [command, failure]
      let before : Overrides := { asError := ["cmd-cc"], asWarning := [] }
      let withErrors : Overrides := { asError := ["int-ice", "cmd-cc"], asWarning := [] }
      let withWarnings : Overrides := { asError := ["cmd-cc"], asWarning := ["cmd-cc", "int-ice"] }
      before.asError ⊆ withErrors.asError
      ∧ before.asWarning ⊆ withWarnings.asWarning
      ∧ MovesTo .error before withErrors reports
      ∧ MovesTo .warning before withWarnings reports
      ∧ Tally.ofReports before reports = { error := 1, fatal := 1 }
      ∧ Tally.ofReports withErrors reports = { error := 2 }
      ∧ Tally.ofReports withWarnings reports = { error := 1, warning := 1 } := by
  intro command failure reports before withErrors withWarnings
  have errors : before.asError ⊆ withErrors.asError := List.subset_cons_self _ _
  have warnings : before.asWarning ⊆ withWarnings.asWarning := List.nil_subset _
  obtain ⟨promoted, demoted, _⟩ := overrides_act_monotonically reports errors warnings
  exact ⟨errors, warnings, promoted, demoted, rfl, rfl, rfl⟩

end CompilerReports
