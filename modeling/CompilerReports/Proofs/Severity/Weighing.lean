import CompilerReports.Proofs.Policy.Resolution

/-! The tally of reports and their greatest severity agree. The tally counts the reports of each
severity, and the greatest severity is the maximum of the reports' severities in the order of
rank; so both are known from how often each severity occurs.
-/

namespace CompilerReports

-----------------------------------------------------------------------------------------
-- The order of severities
-----------------------------------------------------------------------------------------

namespace Severity

/-- A severity is at most another one if it ranks no higher. -/
instance : LE Severity := ⟨fun left right => left.rank ≤ right.rank⟩

/-- The one of two severities that ranks higher. -/
instance : Max Severity := ⟨fun left right => if left.rank ≤ right.rank then right else left⟩

theorem le_iff_rank_le {left right : Severity}
    : left ≤ right ↔ left.rank ≤ right.rank :=
  Iff.rfl

theorem compare_le_zero_iff {left right : Severity}
    : left.compare right ≤ 0 ↔ left ≤ right := by
  rw [le_iff_rank_le, compare]
  omega

/-- Severities of one rank are the same, since the rank is the place in the list of all. -/
theorem rank_injective {left right : Severity} (same : left.rank = right.rank)
    : left = right := by
  have found := all_getElem_rank left
  rw [same, all_getElem_rank right] at found
  exact (Option.some.inj found).symm

instance : Std.IsLinearOrder Severity where
  le_refl _ := Nat.le_refl _
  le_trans _ _ _ := Nat.le_trans
  le_antisymm _ _ below above := rank_injective (Nat.le_antisymm below above)
  le_total _ _ := Nat.le_total _ _

theorem max_eq (left right : Severity)
    : max left right = if left.rank ≤ right.rank then right else left :=
  rfl

instance : Std.LawfulOrderMax Severity where
  max_eq_or left right := by
    rw [max_eq]
    split
    · exact Or.inr rfl
    · exact Or.inl rfl
  max_le_iff left right bound := by
    simp only [max_eq, le_iff_rank_le]
    split <;> omega

/-- A further severity raises one so far to the greater of the two, by the cases of both. -/
theorem raise_some (severity next : Severity)
    : raise (some severity) next = some (max severity next) := by
  cases severity <;> cases next <;> rfl

/-- Severities raise one so far to the maximum of them all, by induction on them. -/
theorem foldl_raise_some (severity : Severity) (more : List Severity)
    : more.foldl raise (some severity) = some (more.foldl max severity) := by
  induction more generalizing severity with
  | nil => rfl
  | cons next rest ih => rw [List.foldl_cons, raise_some, ih, List.foldl_cons]

theorem foldl_raise_none (severities : List Severity)
    : severities.foldl raise none = severities.max? := by
  cases severities with
  | nil => rfl
  | cons first rest => exact foldl_raise_some first rest

/-- The maximum of two lists in a row is the greater of their maxima. -/
theorem max?_append (left right : List Severity)
    : (left ++ right).max? = max left.max? right.max? := by
  cases left with
  | nil => rw [List.nil_append, List.max?_nil, Option.max_none_left]
  | cons first rest =>
      rw [List.cons_append, List.max?_cons', List.max?_cons', List.foldl_append, List.foldl_max]
      cases right.max? with
      | none => exact congrArg some Std.max_self
      | some greatest => rfl

/-- The greatest severity of reports is the maximum of their severities. -/
theorem greatest?_eq_max? (overrides : Overrides) (reports : List Report)
    : greatest? overrides reports = (reports.map (Report.severity overrides)).max? := by
  rw [greatest?_eq, foldl_raise_none]

theorem greatest?_eq_some_iff {overrides : Overrides} {reports : List Report} {severity : Severity}
    : greatest? overrides reports = some severity
      ↔ (∃ report ∈ reports, report.severity overrides = severity)
        ∧ ∀ report ∈ reports, report.severity overrides ≤ severity := by
  rw [greatest?_eq_max?, List.max?_eq_some_iff, List.mem_map, List.forall_mem_map]

end Severity

-----------------------------------------------------------------------------------------
-- The tally
-----------------------------------------------------------------------------------------

namespace Tally

/-- The number of all reports in a tally. -/
def total (tally : Tally) : Nat :=
  tally.debug + tally.trace + tally.hint + tally.warning + tally.error + tally.fatal

/-- Severities that are added one after the other are counted each under itself, by induction on
them.
-/
theorem count_foldl_add (tally : Tally) (severities : List Severity) (severity : Severity)
    : (severities.foldl add tally).count severity
      = tally.count severity + severities.count severity := by
  induction severities generalizing tally with
  | nil => rfl
  | cons next rest ih =>
      rw [List.foldl_cons, ih, count_add, List.count_cons, Nat.add_assoc]
      congr 1
      simp only [beq_iff_eq, eq_comm (a := next)]
      exact Nat.add_comm _ _

theorem count_empty (severity : Severity)
    : ({} : Tally).count severity = 0 := by
  cases severity <;> rfl

/-- The tally counts for each severity the reports that have it. -/
theorem count_ofReports (overrides : Overrides) (reports : List Report) (severity : Severity)
    : (ofReports overrides reports).count severity
      = reports.countP fun report => decide (report.severity overrides = severity) := by
  rw [ofReports_eq, count_foldl_add, count_empty, Nat.zero_add, List.count_eq_countP,
    List.countP_map]
  rfl

theorem count_ofReports_pos_iff {overrides : Overrides} {reports : List Report}
    {severity : Severity}
    : 0 < (ofReports overrides reports).count severity
      ↔ ∃ report ∈ reports, report.severity overrides = severity := by
  simp only [count_ofReports, List.countP_pos_iff, decide_eq_true_eq]

/-- A tally is known by its counts. -/
theorem eq_of_count {left right : Tally}
    (same : ∀ severity, left.count severity = right.count severity)
    : left = right := by
  obtain ⟨⟩ := left
  obtain ⟨⟩ := right
  rw [mk.injEq]
  exact ⟨same .debug, same .trace, same .hint, same .warning, same .error, same .fatal⟩

/-- Adding a report adds one to the total, by the cases of its severity. -/
theorem total_add (tally : Tally) (severity : Severity)
    : (tally.add severity).total = tally.total + 1 := by
  cases severity <;> simp only [add, total] <;> omega

theorem total_foldl_add (tally : Tally) (severities : List Severity)
    : (severities.foldl add tally).total = tally.total + severities.length := by
  induction severities generalizing tally with
  | nil => rfl
  | cons next rest ih =>
      rw [List.foldl_cons, ih, total_add, List.length_cons]
      omega

/-- Every report is counted once. -/
theorem total_ofReports (overrides : Overrides) (reports : List Report)
    : (ofReports overrides reports).total = reports.length := by
  rw [ofReports_eq, total_foldl_add, List.length_map]
  exact Nat.zero_add _

end Tally

-----------------------------------------------------------------------------------------
-- Both agree
-----------------------------------------------------------------------------------------

namespace Severity

/-- The greatest severity is the greatest one that the tally counts. -/
theorem greatest?_eq_some_iff_count {overrides : Overrides} {reports : List Report}
    {severity : Severity}
    : greatest? overrides reports = some severity
      ↔ 0 < (Tally.ofReports overrides reports).count severity
        ∧ ∀ other,
            0 < (Tally.ofReports overrides reports).count other
            → other.compare severity ≤ 0 := by
  simp only [greatest?_eq_some_iff, Tally.count_ofReports_pos_iff, compare_le_zero_iff]
  refine and_congr_right fun _ => ⟨?_, ?_⟩
  · rintro bound other ⟨report, member, rfl⟩
    exact bound report member
  · intro bound report member
    exact bound _ ⟨report, member, rfl⟩

/-- Reports in another order have the same greatest severity. -/
theorem greatest?_perm {overrides : Overrides} {reports reordered : List Report}
    (same : reordered.Perm reports)
    : greatest? overrides reordered = greatest? overrides reports := by
  ext severity
  simp only [greatest?_eq_some_iff, same.mem_iff]

end Severity

/-- The tally and the greatest severity agree, for any reports under any overrides. Each severity is
counted as often as a report has it, so the six counts sum to the number of reports. There is a
greatest severity exactly if there is a report; it is the greatest one of a positive count, no
report's severity exceeds it, and some report has it. Neither depends on the order of the reports.
And for reports in a row the counts add up, and the greatest severity is the greater of the two.
-/
theorem tally_and_greatest_agree (overrides : Overrides) (reports : List Report)
    : let tally := Tally.ofReports overrides reports
      let greatest := Severity.greatest? overrides reports
      (∀ severity,
        tally.count severity
        = reports.countP fun report => decide (report.severity overrides = severity))
      ∧ tally.debug + tally.trace + tally.hint + tally.warning + tally.error + tally.fatal
        = reports.length
      ∧ [Severity.debug, .trace, .hint, .warning, .error, .fatal].Pairwise
          (fun lower higher => lower.compare higher < 0)
      ∧ (greatest = none ↔ reports = [])
      ∧ (∀ severity,
          greatest = some severity
          ↔ 0 < tally.count severity
            ∧ ∀ other, 0 < tally.count other → other.compare severity ≤ 0)
      ∧ (∀ severity,
          greatest = some severity
          → (∀ report ∈ reports, (report.severity overrides).compare severity ≤ 0)
            ∧ ∃ report ∈ reports, report.severity overrides = severity)
      ∧ (∀ reordered : List Report,
          reordered.Perm reports
          → Tally.ofReports overrides reordered = tally
            ∧ Severity.greatest? overrides reordered = greatest)
      ∧ ∀ more : List Report,
          (∀ severity,
            (Tally.ofReports overrides (reports ++ more)).count severity
            = tally.count severity + (Tally.ofReports overrides more).count severity)
          ∧ Severity.greatest? overrides (reports ++ more)
            = max greatest (Severity.greatest? overrides more) := by
  intro tally greatest
  refine ⟨Tally.count_ofReports overrides reports, Tally.total_ofReports overrides reports,
    by decide, ?_, fun severity => Severity.greatest?_eq_some_iff_count, ?_, ?_, ?_⟩
  · simp only [greatest, Severity.greatest?_eq_max?, List.max?_eq_none_iff, List.map_eq_nil_iff]
  · intro severity found
    obtain ⟨reached, bound⟩ := Severity.greatest?_eq_some_iff.mp found
    exact ⟨fun report member => Severity.compare_le_zero_iff.mpr (bound report member), reached⟩
  · intro reordered same
    refine ⟨Tally.eq_of_count fun severity => ?_, Severity.greatest?_perm same⟩
    rw [Tally.count_ofReports, Tally.count_ofReports, same.countP_eq]
  · intro more
    refine ⟨fun severity => ?_, ?_⟩
    · simp only [tally, Tally.count_ofReports, List.countP_append]
    · simp only [greatest, Severity.greatest?_eq_max?, List.map_append, Severity.max?_append]

end CompilerReports
