import CompilerReports.Proofs.Session.Effects

/-! How commands fail. A name that is bound to nothing and a refused operation fail a command of
any kind; the compilation is given up only by the one command for it, and only once its report
has been minted.
-/

namespace CompilerReports

-----------------------------------------------------------------------------------------
-- Verdicts that go on
-----------------------------------------------------------------------------------------

namespace Verdict

/-- The verdict does not give the compilation up. -/
def GoesOn (verdict : Verdict) : Prop :=
  ∀ ledger id report, verdict.outcome ≠ .error (.aborted ledger id report)

theorem goesOn_of_ok {verdict : Verdict} {given : Answer} (answered : verdict.outcome = .ok given)
    : verdict.GoesOn := by
  intro ledger id report aborted
  rw [answered] at aborted
  cases aborted

theorem refuse_goesOn (refusal : Refusal)
    : (refuse refusal).GoesOn := by
  intro ledger id report aborted
  cases aborted

theorem unbound_goesOn (name : String)
    : (fail (.unbound name)).GoesOn := by
  intro ledger id report aborted
  cases aborted

theorem withBound_goesOn {α : Type} {bindings : Bindings α} {name : String} {use : α → Verdict}
    (going : ∀ value, (use value).GoesOn)
    : (withBound bindings name use).GoesOn :=
  withBound_cases GoesOn (fun value _ => going value) (unbound_goesOn name)

theorem ofResult_goesOn {α : Type} {result : Except Refusal α} {use : α → Verdict}
    (going : ∀ value, (use value).GoesOn)
    : (ofResult result use).GoesOn :=
  ofResult_cases GoesOn (fun value _ => going value) fun refusal _ => refuse_goesOn refusal

end Verdict

namespace Session

theorem withOverrides_goesOn {session : Session} {judging : Judging} {use : Overrides → Verdict}
    (going : ∀ overrides, (use overrides).GoesOn)
    : (session.withOverrides judging use).GoesOn :=
  withOverrides_cases Verdict.GoesOn going Verdict.unbound_goesOn

theorem withSource_goesOn {session : Session} {source : Source} {use : List Report → Verdict}
    (going : ∀ reports, (use reports).GoesOn)
    : (session.withSource source use).GoesOn :=
  withSource_cases Verdict.GoesOn going Verdict.unbound_goesOn

-----------------------------------------------------------------------------------------
-- The command that gives up
-----------------------------------------------------------------------------------------

/-- Every command goes on but the one that is there to give up, by the cases of the command. -/
theorem judge_goesOn (session : Session) {command : Command}
    (other : ∀ carrier draft, command ≠ .abort carrier draft)
    : (session.judge command).GoesOn := by
  cases command with
  | abort carrier draft => exact absurd rfl (other carrier draft)
  | mint name draft | emit carrier draft =>
      exact Verdict.ofResult_goesOn fun _ => Verdict.goesOn_of_ok rfl
  | find ledger id name | findChecked ledger id name =>
      exact Verdict.ofResult_goesOn fun _ => Verdict.goesOn_of_ok rfl
  | within name report step => exact Verdict.withBound_goesOn fun _ => Verdict.goesOn_of_ok rfl
  | kindOf report | describe report | isOf report category | readView view =>
      exact Verdict.withBound_goesOn fun _ => Verdict.goesOn_of_ok rfl
  | add ledger report | next cursor =>
      exact Verdict.withBound_goesOn fun _ => Verdict.goesOn_of_ok rfl
  | emitRejected ledger policy site stack =>
      refine Verdict.withBound_goesOn ?_
      intro found ledger id report aborted
      dsimp only at aborted
      split at aborted
      · cases aborted
      · cases aborted
  | severity report judging =>
      exact Verdict.withBound_goesOn fun _ =>
        withOverrides_goesOn fun _ => Verdict.goesOn_of_ok rfl
  | severities ledger judging =>
      exact withOverrides_goesOn fun _ => Verdict.goesOn_of_ok rfl
  | tally source judging | greatest source judging =>
      exact withSource_goesOn fun _ => withOverrides_goesOn fun _ => Verdict.goesOn_of_ok rfl
  | setTracing flag => exact Verdict.goesOn_of_ok rfl
  | size ledger | reports ledger | entries ledger | kinds ledger =>
      exact Verdict.goesOn_of_ok rfl
  | openView name ledger => exact Verdict.goesOn_of_ok rfl
  | openCursor name ledger numbered => exact Verdict.goesOn_of_ok rfl
  | resolve name asError asWarning => exact Verdict.goesOn_of_ok rfl

/-- A compilation that is given up carries the report that was minted for it, under the next id of
the ledger that was meant.
-/
theorem eq_abort_of_aborted {session : Session} {command : Command} {ledger : String} {id : Nat}
    {report : Report} (aborted : (session.judge command).outcome = .error (.aborted ledger id report))
    : ∃ carrier draft,
        command = .abort carrier draft
        ∧ draft.mint = .ok report
        ∧ carrier.ledger = ledger
        ∧ session.nextId ledger = id := by
  by_cases gives : ∃ carrier draft, command = .abort carrier draft
  · obtain ⟨carrier, draft, rfl⟩ := gives
    simp only [judge] at aborted
    cases minted : draft.mint with
    | error refusal =>
        rw [minted] at aborted
        cases aborted
    | ok made =>
        rw [minted] at aborted
        cases aborted
        exact ⟨carrier, draft, rfl, minted, rfl, rfl⟩
  · have other : ∀ carrier draft, command ≠ .abort carrier draft :=
      fun carrier draft same => gives ⟨carrier, draft, same⟩
    exact absurd aborted (session.judge_goesOn other ledger id report)

end Session

end CompilerReports
