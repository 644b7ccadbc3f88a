import Mathlib.Data.List.Forall2
import CompilerReports.Proofs.Session.Runs

/-! Tracing only observes. The flag decides whether the lines of a command are written, and it is
asked nowhere else: what a command is judged to do, which events come of it and what it leaves
behind are the same in sessions that differ in the flag alone. So two runs of commands that set
other flags, and are the same else, part in nothing but the lines that they write.
-/

namespace CompilerReports

-----------------------------------------------------------------------------------------
-- The same but for the flag
-----------------------------------------------------------------------------------------

/-- (command.SameButFlag other) holds of the same commands, and of any two that set the flag. -/
inductive Command.SameButFlag : Command → Command → Prop
  | same {command} : SameButFlag command command
  | setting {flag other} : SameButFlag (.setTracing flag) (.setTracing other)

/-- The sessions hold the same ledgers and have bound the same names to the same things, cursors
in their positions included.
-/
structure Session.SameButTracing (session other : Session) : Prop where
  ledgers : session.ledgers = other.ledgers
  reports : session.reports = other.reports
  policies : session.policies = other.policies
  views : session.views = other.views
  cursors : session.cursors = other.cursors

/-- Two replies to a command are the same but for their trace: each has written the same lines or
none at all. Only where the command sets the flag may their outcomes differ.
-/
structure Reply.SameButTrace (command : Command) (reply other : Reply) : Prop where
  outcome : (∀ flag, command ≠ .setTracing flag) → reply.outcome = other.outcome
  sizes : reply.sizes = other.sizes
  trace
    : ∃ lines,
        (reply.trace = lines ∨ reply.trace = [])
        ∧ (other.trace = lines ∨ other.trace = [])

namespace Session

/-- The session with another flag. -/
def withTracing (session : Session) (enabled : Bool) : Session :=
  { session with tracing := enabled }

theorem SameButTracing.eq_withTracing {session other : Session}
    (same : session.SameButTracing other)
    : session = other.withTracing session.tracing := by
  obtain ⟨tracing, ledgers, reports, policies, views, cursors⟩ := session
  obtain ⟨rfl, rfl, rfl, rfl, rfl⟩ := same
  rfl

-----------------------------------------------------------------------------------------
-- One command
-----------------------------------------------------------------------------------------

/-- Names stand for the same reports whatever the flag, by induction on the names. -/
theorem reportsNamed_withTracing (session : Session) (enabled : Bool) (names : List String)
    : (session.withTracing enabled).reportsNamed names = session.reportsNamed names := by
  induction names with
  | nil => rfl
  | cons name rest ih =>
      simp only [reportsNamed, ih]
      rfl

theorem withSource_withTracing (session : Session) (enabled : Bool) (source : Source)
    (use : List Report → Verdict)
    : (session.withTracing enabled).withSource source use = session.withSource source use := by
  cases source with
  | ledger name => rfl
  | reports names =>
      simp only [withSource, reportsNamed_withTracing]

/-- A command is judged alike whatever the flag, by the cases of the command. -/
theorem judge_withTracing (session : Session) (enabled : Bool) (command : Command)
    : (session.withTracing enabled).judge command = session.judge command := by
  cases command with
  | severity report judging | severities ledger judging => cases judging <;> rfl
  | tally source judging | greatest source judging =>
      simp only [judge, withSource_withTracing]
      cases judging <;> rfl
  | _ => rfl

/-- What is left behind does not turn on the flag, by the cases of the change. -/
theorem sameButTracing_after (session : Session) (enabled : Bool) (command : Command)
    (verdict : Verdict)
    : ((session.withTracing enabled).after command verdict).SameButTracing
        (session.after command verdict) := by
  have extended : (session.withTracing enabled).extend command.ledger? verdict.added
      = (session.extend command.ledger? verdict.added).withTracing enabled := by
    cases command.ledger? <;> rfl
  simp only [after, extended]
  cases verdict.change <;> exact ⟨rfl, rfl, rfl, rfl, rfl⟩

theorem SameButTracing.sizes {session other : Session} (same : session.SameButTracing other)
    : session.sizes = other.sizes := by
  simp only [Session.sizes, same.ledgers]

/-- Two sessions that differ in the flag alone take a command alike: they differ in the flag alone
again, and their replies in the trace. Witness: the verdict and its events are the same, and each
session writes the lines of these events or none.
-/
theorem SameButTracing.step {session other : Session} (same : session.SameButTracing other)
    (command : Command)
    : (session.step command).1.SameButTracing (other.step command).1
      ∧ Reply.SameButTrace command (session.step command).2 (other.step command).2 := by
  rw [same.eq_withTracing]
  have judged := other.judge_withTracing session.tracing command
  have next := other.sameButTracing_after session.tracing command (other.judge command)
  have events : (other.withTracing session.tracing).events command (other.judge command)
      = other.events command (other.judge command) := rfl
  refine ⟨?_, ?_, ?_, (other.events command (other.judge command)).map Event.line, ?_, ?_⟩
  · simpa only [Session.step, judged] using next
  · intro _
    simp only [step_outcome, judged]
  · simpa only [Session.step, judged] using next.sizes
  · simp only [Session.step, judged, events]
    exact ite_eq_or_eq ..
  · simp only [Session.step]
    exact ite_eq_or_eq ..

/-- So they do with commands that set different flags. -/
theorem SameButTracing.step_setTracing {session other : Session}
    (same : session.SameButTracing other) (flag otherFlag : Option String)
    : (session.step (.setTracing flag)).1.SameButTracing (other.step (.setTracing otherFlag)).1
      ∧ Reply.SameButTrace (.setTracing flag) (session.step (.setTracing flag)).2
          (other.step (.setTracing otherFlag)).2 := by
  obtain ⟨ledgers, reports, policies, views, cursors⟩ := same
  refine ⟨⟨ledgers, reports, policies, views, cursors⟩, ?_, ?_, [], ?_, ?_⟩
  · intro unset
    exact absurd rfl (unset flag)
  · exact congrArg (fun held => held.entries.map fun entry => (entry.1, entry.2.size)) ledgers
  · exact ite_eq_or_eq ..
  · exact ite_eq_or_eq ..

-----------------------------------------------------------------------------------------
-- Whole runs
-----------------------------------------------------------------------------------------

/-- Tracing only observes. Two sessions that differ in the flag alone, and run commands that are
the same but for the flags that they set, reply alike to every command that sets no flag, with the
same outcome and the same sizes, and end in sessions that differ in the flag alone. Only the traces
of the replies may differ, and then one of the two has written nothing. Witness: induction on the
commands, whose step is taken alike.
-/
theorem tracing_only_observes {start other : Session} (same : start.SameButTracing other)
    {commands others : List Command} (alike : List.Forall₂ Command.SameButFlag commands others)
    : (start.finish commands).SameButTracing (other.finish others)
      ∧ List.Forall₂ (fun answered reply => Reply.SameButTrace answered.1 answered.2 reply)
          (commands.zip (start.replies commands)) (other.replies others) := by
  induction alike generalizing start other with
  | nil => exact ⟨same, .nil⟩
  | @cons command twin rest more alike _ ih =>
      have step : (start.step command).1.SameButTracing (other.step twin).1
          ∧ Reply.SameButTrace command (start.step command).2 (other.step twin).2 := by
        cases alike with
        | same => exact same.step command
        | setting => exact same.step_setTracing _ _
      obtain ⟨ends, replies⟩ := ih step.1
      exact ⟨ends, .cons step.2 replies⟩

/-- A report that is emitted and a look-up that fails write one line each where tracing is enabled,
and none where it is not; nothing else comes of the flag.
-/
theorem tracing_only_observes_enabled_and_not
    : let draft : Draft := { category := "cmd", payload := ⟨"cmd-cc", []⟩, site := some .unknown }
      let later : List Command := [.emit (.direct "main") draft, .find "main" .nan (some "r")]
      let commands := .setTracing (some " Yes ") :: later
      let others := .setTracing none :: later
      List.Forall₂ Command.SameButFlag commands others
      ∧ (finish {} commands).SameButTracing (finish {} others)
      ∧ List.Forall₂ (fun answered reply => Reply.SameButTrace answered.1 answered.2 reply)
          (commands.zip (replies {} commands)) (replies {} others)
      ∧ (replies {} commands).map (fun reply => reply.trace.length) = [0, 1, 1]
      ∧ (replies {} others).map (fun reply => reply.trace.length) = [0, 0, 0] := by
  intro draft later commands others
  have start : SameButTracing {} {} := ⟨rfl, rfl, rfl, rfl, rfl⟩
  have alike : List.Forall₂ Command.SameButFlag commands others :=
    .cons .setting (.cons .same (.cons .same .nil))
  obtain ⟨ends, replied⟩ := tracing_only_observes start alike
  exact ⟨alike, ends, replied, by rfl, by rfl⟩

end Session

end CompilerReports
