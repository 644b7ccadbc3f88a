import CompilerReports.Proofs.Report.Envelope
import CompilerReports.Proofs.Session.Failures
import CompilerReports.Proofs.Session.Holdings

/-! Every report of a reachable session has its envelope, wherever the report is met: under a name,
in a ledger, or in the error of a compilation that was given up. Queries about such reports always
have an answer.
-/

namespace CompilerReports.Session

-----------------------------------------------------------------------------------------
-- What a query weighs, and under which overrides
-----------------------------------------------------------------------------------------

/-- The overrides that a command takes, where it names no unbound policy. -/
def overrides? (session : Session) : Judging → Option Overrides
  | .given overrides => some overrides
  | .policy name => (session.policies.get? name).map Policy.overrides

/-- The reports that a command weighs, where it names no unbound report. -/
def weighed? (session : Session) : Source → Option (List Report)
  | .ledger name => some (session.ledger name).reports
  | .reports names => names.mapM session.reports.get?

theorem withOverrides_eq {session : Session} {judging : Judging} {overrides : Overrides}
    (taken : session.overrides? judging = some overrides) (use : Overrides → Verdict)
    : session.withOverrides judging use = use overrides := by
  cases judging with
  | given own =>
      cases taken
      rfl
  | policy name =>
      obtain ⟨policy, bound, rfl⟩ := Option.map_eq_some_iff.mp taken
      simp only [withOverrides, Verdict.withBound, bound]

/-- Names that are all bound name reports that the session holds, by induction on the names. -/
theorem reportsNamed_of_bound {session : Session} {names : List String} {reports : List Report}
    (bound : names.mapM session.reports.get? = some reports)
    : session.reportsNamed names = .ok reports ∧ ∀ report ∈ reports, session.Holds report := by
  induction names generalizing reports with
  | nil =>
      cases bound
      refine ⟨rfl, ?_⟩
      intro report member
      cases member
  | cons name rest ih =>
      rw [List.mapM_cons] at bound
      obtain ⟨head, first, bound⟩ := Option.bind_eq_some_iff.mp bound
      obtain ⟨others, later, same⟩ := Option.bind_eq_some_iff.mp bound
      cases same
      obtain ⟨named, held⟩ := ih later
      refine ⟨by simp only [reportsNamed, first, named], ?_⟩
      intro report member
      rcases List.mem_cons.mp member with rfl | behind
      · exact .bound first
      · exact held report behind

/-- A command weighs reports that the session holds. -/
theorem holds_of_weighed {session : Session} {source : Source} {reports : List Report}
    (weighed : session.weighed? source = some reports) {report : Report} (member : report ∈ reports)
    : session.Holds report := by
  cases source with
  | ledger name =>
      cases weighed
      exact .stored member
  | reports names => exact (reportsNamed_of_bound weighed).2 report member

theorem withSource_eq {session : Session} {source : Source} {reports : List Report}
    (weighed : session.weighed? source = some reports) (use : List Report → Verdict)
    : session.withSource source use = use reports := by
  cases source with
  | ledger name =>
      cases weighed
      rfl
  | reports names => simp only [withSource, (reportsNamed_of_bound weighed).1]

-----------------------------------------------------------------------------------------
-- Envelopes
-----------------------------------------------------------------------------------------

/-- Every report that a reachable session holds has its envelope. -/
theorem Reachable.enveloped {session : Session} (reachable : session.Reachable) {report : Report}
    (held : session.Holds report)
    : report.Enveloped :=
  reachable.holdsOnly Report.enveloped_of_mint (fun step before => before.within step) report held

/-- After any run, every report that is bound to a name, kept in a ledger, or carried by the error
of a compilation given up next has its envelope. And a query about reports that are there always
has its answer: the kind of a report, whether it is of a category, its severity, and the tally and
the greatest severity of named reports or of a ledger, under any overrides.
-/
theorem held_reports_enveloped (commands : List Command)
    : let session := finish {} commands
      (∀ report, session.Holds report → report.Enveloped)
      ∧ (∀ command ledger id report,
          (session.step command).2.outcome = .error (.aborted ledger id report)
          → report.Enveloped)
      ∧ (∀ name report,
          session.reports.get? name = some report
          → (session.step (.kindOf name)).2.outcome = .ok (.kind report.kind)
            ∧ (∀ category,
                (session.step (.isOf name category)).2.outcome
                  = .ok (.truth (report.isOf category)))
            ∧ ∀ judging overrides,
                session.overrides? judging = some overrides
                → (session.step (.severity name judging)).2.outcome
                  = .ok (.severity (report.severity overrides)))
      ∧ ∀ source reports judging overrides,
          session.weighed? source = some reports
          → session.overrides? judging = some overrides
          → (∀ report ∈ reports, report.Enveloped)
            ∧ (session.step (.tally source judging)).2.outcome
              = .ok (.tally (Tally.ofReports overrides reports))
            ∧ (session.step (.greatest source judging)).2.outcome
              = .ok (.greatest (Severity.greatest? overrides reports)) := by
  intro session
  have reachable : session.Reachable := ⟨commands, rfl⟩
  refine ⟨fun report held => reachable.enveloped held, ?_, ?_, ?_⟩
  · intro command ledger id report aborted
    obtain ⟨carrier, draft, _, minted, _⟩ := eq_abort_of_aborted aborted
    exact Report.enveloped_of_mint minted
  · intro name report bound
    simp only [step_outcome, judge, Verdict.withBound, bound]
    refine ⟨rfl, fun category => rfl, ?_⟩
    intro judging overrides taken
    rw [withOverrides_eq taken]
    rfl
  · intro source reports judging overrides weighed taken
    refine ⟨?_, ?_, ?_⟩
    · exact fun report member => reachable.enveloped (holds_of_weighed weighed member)
    · simp only [step_outcome, judge, withSource_eq weighed, withOverrides_eq taken]
      rfl
    · simp only [step_outcome, judge, withSource_eq weighed, withOverrides_eq taken]
      rfl

end CompilerReports.Session
