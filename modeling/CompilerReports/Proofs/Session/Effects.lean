import CompilerReports.Proofs.Session.Runs

/-! What one command can do to a session. Every verdict is one of a few shapes, and from those
follow the two facts that later proofs use in place of the verdicts: which change a command can
leave behind, and which ledger it can append to.
-/

namespace CompilerReports

-----------------------------------------------------------------------------------------
-- Verdicts by their shape
-----------------------------------------------------------------------------------------

namespace Verdict

/-- What holds of a verdict for every bound value, and of the failure where nothing is bound,
holds of the verdict that looks the name up.
-/
theorem withBound_cases {α : Type} (holds : Verdict → Prop) {bindings : Bindings α}
    {name : String} {use : α → Verdict}
    (bound : ∀ value, bindings.get? name = some value → holds (use value))
    (unbound : holds (fail (.unbound name)))
    : holds (withBound bindings name use) := by
  unfold withBound
  split
  · exact bound _ ‹_›
  · exact unbound

/-- What holds of a verdict for every result, and of every refusal, holds of the verdict that
turns on the result.
-/
theorem ofResult_cases {α : Type} (holds : Verdict → Prop) {result : Except Refusal α}
    {use : α → Verdict} (done : ∀ value, result = .ok value → holds (use value))
    (refused : ∀ refusal, result = .error refusal → holds (refuse refusal))
    : holds (ofResult result use) := by
  cases result with
  | ok value => exact done value rfl
  | error refusal => exact refused refusal rfl

/-- The verdict adds no report to a ledger and changes nothing. -/
def OnlyAnswers (verdict : Verdict) : Prop := verdict.added = [] ∧ verdict.change = .nothing

theorem answer_onlyAnswers (given : Answer)
    : (answer given).OnlyAnswers :=
  ⟨rfl, rfl⟩

theorem fail_onlyAnswers (failure : Failure)
    : (fail failure).OnlyAnswers :=
  ⟨rfl, rfl⟩

theorem withBound_onlyAnswers {α : Type} {bindings : Bindings α} {name : String}
    {use : α → Verdict} (answers : ∀ value, (use value).OnlyAnswers)
    : (withBound bindings name use).OnlyAnswers :=
  withBound_cases OnlyAnswers (fun value _ => answers value) (fail_onlyAnswers _)

end Verdict

namespace Session

/-- What holds of a verdict for all overrides, and of the failure where no policy is bound, holds of
the verdict that takes its overrides from the command.
-/
theorem withOverrides_cases (holds : Verdict → Prop) {session : Session} {judging : Judging}
    {use : Overrides → Verdict} (given : ∀ overrides, holds (use overrides))
    (unbound : ∀ name, holds (.fail (.unbound name)))
    : holds (session.withOverrides judging use) := by
  cases judging with
  | policy name =>
      exact Verdict.withBound_cases holds (fun policy _ => given policy.overrides) (unbound name)
  | given overrides => exact given overrides

/-- Names of reports fail only where one of them is unbound, by induction on the names. -/
theorem unbound_of_reportsNamed {session : Session} {names : List String} {failure : Failure}
    (failed : session.reportsNamed names = .error failure)
    : ∃ name, failure = .unbound name := by
  induction names with
  | nil => cases failed
  | cons name rest ih =>
      simp only [reportsNamed] at failed
      split at failed
      · cases failed
        exact ⟨name, rfl⟩
      · rename_i later _
        cases failed
        exact ih later
      · cases failed

/-- What holds of a verdict for all reports, and of the failure where a name is bound to none, holds
of the verdict that weighs the reports that the command names.
-/
theorem withSource_cases (holds : Verdict → Prop) {session : Session} {source : Source}
    {use : List Report → Verdict} (weighed : ∀ reports, holds (use reports))
    (unbound : ∀ name, holds (.fail (.unbound name)))
    : holds (session.withSource source use) := by
  cases source with
  | ledger name => exact weighed _
  | reports names =>
      simp only [withSource]
      split
      · exact weighed _
      · rename_i failed
        obtain ⟨name, rfl⟩ := unbound_of_reportsNamed failed
        exact unbound name

theorem withOverrides_onlyAnswers {session : Session} {judging : Judging}
    {use : Overrides → Verdict} (answers : ∀ overrides, (use overrides).OnlyAnswers)
    : (session.withOverrides judging use).OnlyAnswers :=
  withOverrides_cases Verdict.OnlyAnswers answers fun _ => Verdict.fail_onlyAnswers _

theorem withSource_onlyAnswers {session : Session} {source : Source}
    {use : List Report → Verdict} (answers : ∀ reports, (use reports).OnlyAnswers)
    : (session.withSource source use).OnlyAnswers :=
  withSource_cases Verdict.OnlyAnswers answers fun _ => Verdict.fail_onlyAnswers _

-----------------------------------------------------------------------------------------
-- The changes that commands leave behind
-----------------------------------------------------------------------------------------

/-- (session.Leaves command change) holds of the changes that a command can leave behind. A name
is bound only by a command that gives it, and only to what the command has made.
-/
inductive Leaves (session : Session) : Command → Change → Prop
  | nothing {command} : session.Leaves command .nothing
  | tracing {flag} : session.Leaves (.setTracing flag) (.tracing (Tracing.isEnabled flag))
  | minted {name draft report} (minted : draft.mint = .ok report)
    : session.Leaves (.mint (some name) draft) (.report name report)
  | extended {name inner step report} (bound : session.reports.get? inner = some report)
    : session.Leaves (.within (some name) inner step) (.report name (report.within step))
  | found {name ledger id report} (found : (session.ledger ledger).find id = .ok report)
    : session.Leaves (.find ledger id (some name)) (.report name report)
  | foundChecked {name ledger id report}
    (found : (session.ledger ledger).findChecked id = .ok report)
    : session.Leaves (.findChecked ledger id (some name)) (.report name report)
  | resolved {name asError asWarning}
    : session.Leaves (.resolve (some name) asError asWarning)
        (.policy name (Policy.resolve asError asWarning))
  | viewed {name ledger} : session.Leaves (.openView name ledger) (.view name ledger)
  | opened {name ledger numbered}
    : session.Leaves (.openCursor name ledger numbered) (.cursor name { ledger, numbered })
  | advanced {name cursor} (bound : session.cursors.get? name = some cursor)
    : session.Leaves (.next name)
        (.cursor name (cursor.advance (session.ledger cursor.ledger)))

theorem Leaves.of_onlyAnswers {session : Session} {command : Command} {verdict : Verdict}
    (answers : verdict.OnlyAnswers)
    : session.Leaves command verdict.change := by
  rw [answers.2]
  exact .nothing

theorem Leaves.of_make {session : Session} (command : Option String → Command)
    {report : Report} (binds : ∀ name, session.Leaves (command (some name)) (.report name report))
    (name : Option String)
    : session.Leaves (command name) (Verdict.make name report).change := by
  cases name with
  | none => exact .nothing
  | some name => exact binds name

/-- A command that binds a name to a report leaves nothing else behind, whether it has a report to
bind or is refused one.
-/
theorem Leaves.of_ofResult {session : Session} (command : Option String → Command)
    {result : Except Refusal Report}
    (binds
      : ∀ name report,
          result = .ok report → session.Leaves (command (some name)) (.report name report))
    (name : Option String)
    : session.Leaves (command name) (Verdict.ofResult result (Verdict.make name)).change := by
  apply Verdict.ofResult_cases (fun verdict => session.Leaves _ verdict.change)
  · intro report made
    exact Leaves.of_make command (fun name => binds name report made) name
  · intro refusal _
    exact .nothing

/-- What a command leaves behind is what its kind allows, by the cases of the command. -/
theorem judge_leaves (session : Session) (command : Command)
    : session.Leaves command (session.judge command).change := by
  cases command with
  | setTracing flag => exact .tracing
  | mint name draft =>
      exact Leaves.of_ofResult (fun name => .mint name draft) (fun _ _ made => .minted made) name
  | within name inner step =>
      apply Verdict.withBound_cases (fun verdict => session.Leaves _ verdict.change)
      · intro report bound
        exact Leaves.of_make (fun name => .within name inner step)
          (fun _ => .extended bound) name
      · exact .nothing
  | find ledger id name =>
      exact Leaves.of_ofResult (fun name => .find ledger id name) (fun _ _ made => .found made) name
  | findChecked ledger id name =>
      exact Leaves.of_ofResult (fun name => .findChecked ledger id name)
        (fun _ _ made => .foundChecked made) name
  | resolve name asError asWarning =>
      cases name with
      | none => exact .nothing
      | some name => exact .resolved
  | openView name ledger => exact .viewed
  | openCursor name ledger numbered => exact .opened
  | next name =>
      apply Verdict.withBound_cases (fun verdict => session.Leaves _ verdict.change)
      · intro cursor bound
        exact .advanced bound
      · exact .nothing
  | add ledger report =>
      exact Verdict.withBound_cases (fun verdict => session.Leaves _ verdict.change)
        (fun _ _ => .nothing) .nothing
  | emit carrier draft | abort carrier draft =>
      exact Verdict.ofResult_cases (fun verdict => session.Leaves _ verdict.change)
        (fun _ _ => .nothing) (fun _ _ => .nothing)
  | emitRejected ledger policy site stack =>
      exact Verdict.withBound_cases (fun verdict => session.Leaves _ verdict.change)
        (fun _ _ => .nothing) .nothing
  | size ledger | reports ledger | entries ledger | kinds ledger => exact .nothing
  | kindOf report | describe report | isOf report category | readView view =>
      exact Leaves.of_onlyAnswers
        (Verdict.withBound_onlyAnswers fun _ => Verdict.answer_onlyAnswers _)
  | severity report judging =>
      exact Leaves.of_onlyAnswers (Verdict.withBound_onlyAnswers fun _ =>
        withOverrides_onlyAnswers fun _ => Verdict.answer_onlyAnswers _)
  | severities ledger judging =>
      exact Leaves.of_onlyAnswers
        (withOverrides_onlyAnswers fun _ => Verdict.answer_onlyAnswers _)
  | tally source judging | greatest source judging =>
      exact Leaves.of_onlyAnswers (withSource_onlyAnswers fun _ =>
        withOverrides_onlyAnswers fun _ => Verdict.answer_onlyAnswers _)

-----------------------------------------------------------------------------------------
-- The session after a command
-----------------------------------------------------------------------------------------

/-- The ledger that a command names is extended by what the command adds. -/
theorem step_ledger_self {session : Session} {command : Command} {name : String}
    (named : command.ledger? = some name)
    : (session.step command).1.ledger name
      = (session.ledger name).append (session.judge command).added := by
  simp only [step, after, ledger_apply, named, ledger_extend_self]

/-- A command leaves every ledger that it does not name as it was. -/
theorem step_ledger_of_ne {session : Session} {command : Command} {name : String}
    (other : command.ledger? ≠ some name)
    : (session.step command).1.ledger name = session.ledger name := by
  simp only [step, after, ledger_apply, ledger_extend_of_ne session other]

theorem extend_eq (session : Session) (named : Option String) (added : List Report)
    : session.extend named added
      = { session with ledgers := (session.extend named added).ledgers } := by
  cases named <;> rfl

/-- After a command the policies are as before, or one name is bound to a policy that the command
resolved.
-/
theorem step_policies (session : Session) (command : Command)
    : (session.step command).1.policies = session.policies
      ∨ ∃ name asError asWarning,
          (session.step command).1.policies
            = session.policies.set name (Policy.resolve asError asWarning) := by
  have leaves := judge_leaves session command
  simp only [step, after]
  rw [extend_eq]
  generalize session.judge command = verdict at leaves ⊢
  obtain ⟨added, change, outcome⟩ := verdict
  cases leaves with
  | resolved => exact Or.inr ⟨_, _, _, rfl⟩
  | _ => exact Or.inl rfl

end Session

end CompilerReports
