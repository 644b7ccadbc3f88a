import CompilerReports.Proofs.Session.Additions

/-! The reports that a session holds: those bound to names and those in ledgers. Reports come
about in two ways only, by minting and by a further step on a report that is held already; so
what holds of minted reports and is kept by a further step holds of every report that a session
can ever hold.
-/

namespace CompilerReports

-----------------------------------------------------------------------------------------
-- Reports found in ledgers
-----------------------------------------------------------------------------------------

namespace Ledger

/-- A report found under a number is in the ledger. -/
theorem mem_of_find {ledger : Ledger} {id : Binary64} {report : Report}
    (found : ledger.find id = .ok report)
    : report ∈ ledger.reports := by
  unfold find at found
  split at found
  · rename_i held look
    cases found
    obtain ⟨place, _, look⟩ := Option.bind_eq_some_iff.mp look
    cases place with
    | zero => cases look
    | succ index => exact List.mem_of_getElem? look
  · cases found

/-- Nothing else is found by way of the check. -/
theorem find_of_findChecked {ledger : Ledger} {id : Binary64} {report : Report}
    (found : ledger.findChecked id = .ok report)
    : ledger.find id = .ok report := by
  unfold findChecked checkId at found
  split at found
  · rename_i checked passed
    split at passed
    · cases passed
      exact found
    · cases passed
  · cases found

end Ledger

namespace Session

-----------------------------------------------------------------------------------------
-- What a session holds, and where it comes from
-----------------------------------------------------------------------------------------

/-- (session.Holds report) holds of the reports that a name is bound to or a ledger contains. -/
inductive Holds (session : Session) : Report → Prop
  | bound {name report} (bound : session.reports.get? name = some report) : session.Holds report
  | stored {name report} (stored : report ∈ (session.ledger name).reports)
    : session.Holds report

/-- (session.Derives report) holds of the reports that one command can come to hold: those held
before, those minted, and those that put a step in front of the chain of a report held before.
-/
inductive Derives (session : Session) : Report → Prop
  | held {report} (held : session.Holds report) : session.Derives report
  | minted {draft report} (minted : Draft.mint draft = .ok report) : session.Derives report
  | extended {report step} (held : session.Holds report) : session.Derives (report.within step)

/-- After a command the names are bound as before, or one of them is bound to a report that the
command derives.
-/
theorem step_reports (session : Session) (command : Command)
    : (session.step command).1.reports = session.reports
      ∨ ∃ name report,
          session.Derives report
          ∧ (session.step command).1.reports = session.reports.set name report := by
  have leaves := judge_leaves session command
  simp only [step, after]
  rw [extend_eq]
  generalize session.judge command = verdict at leaves ⊢
  obtain ⟨added, change, outcome⟩ := verdict
  cases leaves with
  | minted made => exact Or.inr ⟨_, _, .minted made, rfl⟩
  | extended bound => exact Or.inr ⟨_, _, .extended (.bound bound), rfl⟩
  | found look => exact Or.inr ⟨_, _, .held (.stored (Ledger.mem_of_find look)), rfl⟩
  | foundChecked look =>
      have found := Ledger.mem_of_find (Ledger.find_of_findChecked look)
      exact Or.inr ⟨_, _, .held (.stored found), rfl⟩
  | _ => exact Or.inl rfl

/-- A report that comes of several drafts minted together comes of one of them, by induction on
the drafts.
-/
theorem exists_draft_of_mem_mapM {drafts : List Draft} {reports : List Report}
    (minted : drafts.mapM Draft.mint = .ok reports) {report : Report} (member : report ∈ reports)
    : ∃ draft ∈ drafts, draft.mint = .ok report := by
  induction drafts generalizing reports with
  | nil =>
      cases minted
      cases member
  | cons draft rest ih =>
      obtain ⟨head, others, first, later, rfl⟩ := eq_cons_of_mapM_mint minted
      rcases List.mem_cons.mp member with rfl | behind
      · exact ⟨draft, List.mem_cons_self .., first⟩
      · obtain ⟨source, inside, made⟩ := ih later behind
        exact ⟨source, List.mem_cons_of_mem _ inside, made⟩

/-- A report that a command is to add is bound to a name, or is minted, by the cases of the
commands that add.
-/
theorem derives_of_mem_contribution {session : Session} {command : Command} {report : Report}
    (due : report ∈ session.contribution command)
    : session.Derives report := by
  cases command with
  | add ledger name => exact .held (.bound (Option.mem_toList.mp due))
  | emit carrier draft | abort carrier draft =>
      simp only [contribution] at due
      cases minted : draft.mint with
      | ok made =>
          rw [minted] at due
          cases List.mem_singleton.mp due
          exact .minted minted
      | error refusal =>
          rw [minted] at due
          cases due
  | emitRejected ledger policy site stack =>
      simp only [contribution] at due
      split at due
      · rename_i found _
        cases reported : rejectionReports found site stack with
        | ok reports =>
            rw [reported] at due
            obtain ⟨draft, _, minted⟩ := exists_draft_of_mem_mapM reported due
            exact .minted minted
        | error refusal =>
            rw [reported] at due
            cases due
      · cases due
  | _ => cases due

/-- What a session holds after a command, the command derives. -/
theorem PoliciesResolved.derives_of_step {session : Session} (resolved : session.PoliciesResolved)
    {command : Command} {report : Report} (held : (session.step command).1.Holds report)
    : session.Derives report := by
  cases held with
  | @bound name report bound =>
      rcases session.step_reports command with same | ⟨set, given, derived, changed⟩
      · rw [same] at bound
        exact .held (.bound bound)
      · rw [changed] at bound
        by_cases here : name = set
        · subst set
          rw [Bindings.get?_set_self] at bound
          exact Option.some.inj bound ▸ derived
        · rw [Bindings.get?_set_of_ne _ here] at bound
          exact .held (.bound bound)
  | @stored name report stored =>
      by_cases named : command.ledger? = some name
      · rw [step_ledger_self named, (judge_adds resolved command).added] at stored
        rcases List.mem_append.mp stored with before | due
        · exact .held (.stored before)
        · exact derives_of_mem_contribution due
      · rw [step_ledger_of_ne named] at stored
        exact .held (.stored stored)

/-- A session holds only reports that satisfy the given condition. -/
def HoldsOnly (satisfying : Report → Prop) (session : Session) : Prop :=
  ∀ report, session.Holds report → satisfying report

section

variable {satisfying : Report → Prop}
  (minted : ∀ {draft : Draft} {report : Report}, draft.mint = .ok report → satisfying report)
  (extended
    : ∀ {report : Report} (step : Instantiation),
        satisfying report → satisfying (report.within step))

include minted extended

/-- A command brings in no report of another kind, by the ways in which it derives reports. -/
theorem PoliciesResolved.holdsOnly_step {session : Session} (resolved : session.PoliciesResolved)
    (before : session.HoldsOnly satisfying) (command : Command)
    : (session.step command).1.HoldsOnly satisfying := by
  intro report held
  cases resolved.derives_of_step held with
  | held earlier => exact before _ earlier
  | minted made => exact minted made
  | extended earlier => exact extended _ (before _ earlier)

/-- What holds of every minted report, and is kept by a further instantiation step, holds of
every report that a reachable session holds.
-/
theorem Reachable.holdsOnly {session : Session} (reachable : session.Reachable)
    : session.HoldsOnly satisfying := by
  have initially : PoliciesResolved {} ∧ HoldsOnly satisfying {} := by
    refine ⟨reachable_empty.policiesResolved, ?_⟩
    intro report held
    cases held with
    | bound bound => cases bound
    | stored stored => cases stored
  have kept : ∀ (session : Session) (command : Command),
      session.PoliciesResolved ∧ session.HoldsOnly satisfying
      → (session.step command).1.PoliciesResolved
        ∧ (session.step command).1.HoldsOnly satisfying := by
    intro session command before
    exact ⟨before.1.step command, before.1.holdsOnly_step minted extended before.2 command⟩
  exact (@Reachable.keeps (fun session =>
    session.PoliciesResolved ∧ session.HoldsOnly satisfying) initially kept _ reachable).2

end

end Session

end CompilerReports
