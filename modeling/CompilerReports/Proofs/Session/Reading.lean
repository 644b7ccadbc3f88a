import CompilerReports.Proofs.Ledger.Lookup
import CompilerReports.Proofs.Session.Agreement
import CompilerReports.Proofs.Session.Envelope

/-! The ways to read a ledger agree. Its size, its list, its numbered entries, its kinds, a cursor
that is drained from a fresh start, look-ups under each id, views that were opened at any time
before, and the severities that are weighed over it: all of them show one list of reports.
-/

namespace CompilerReports

-----------------------------------------------------------------------------------------
-- Numbered reports
-----------------------------------------------------------------------------------------

namespace Ledger

/-- Numbered reports are the reports beside consecutive ids, by induction on the reports. -/
theorem numbered_eq_zip (id : Nat) (reports : List Report)
    : numbered id reports = (List.range' id reports.length).zip reports := by
  induction reports generalizing id with
  | nil => rfl
  | cons report rest ih => simp [numbered, ih, List.range'_succ]

end Ledger

namespace Cursor

/-- A cursor with a report ahead of it yields that report and moves past it. -/
theorem turn_of_ahead {cursor : Cursor} {held : Ledger} (unfinished : cursor.finished = false)
    {report : Report} {rest : List Report}
    (ahead : held.reports.drop cursor.position = report :: rest)
    : cursor.answer held
        = .yielded (if cursor.numbered then some (cursor.position + 1) else none) report
      ∧ cursor.advance held = { cursor with position := cursor.position + 1 } := by
  have shown : held.reports[cursor.position]? = some report := by
    rw [← List.head?_drop, ahead, List.head?_cons]
  have seen : cursor.peek held = some (cursor.position + 1, report) := by
    simp only [peek, unfinished, Bool.false_eq_true, ↓reduceIte, shown, Option.map_some]
  simp only [answer, advance, seen, and_self]

/-- A cursor with nothing ahead of it finishes. -/
theorem answer_of_exhausted {cursor : Cursor} {held : Ledger}
    (ahead : held.reports.drop cursor.position = [])
    : cursor.answer held = .finished := by
  have shown : held.reports[cursor.position]? = none := by
    rw [← List.head?_drop, ahead, List.head?_nil]
  simp only [answer, peek, shown, Option.map_none, ite_self]

end Cursor

namespace Session

-----------------------------------------------------------------------------------------
-- What reading a ledger shows
-----------------------------------------------------------------------------------------

/-- What comes of a command. -/
def outcomeOf (session : Session) (command : Command) : Except Failure Answer :=
  (session.step command).2.outcome

/-- What a cursor shows that is opened and then asked for as many reports as given. -/
def drained (session : Session) (cursor ledger : String) (numbered : Bool) (turns : Nat)
    : List (Except Failure Answer) :=
  ((session.step (.openCursor cursor ledger numbered)).1.replies
    (List.replicate turns (.next cursor))).map Reply.outcome

/-- Every way to read a ledger shows the given reports. -/
structure ReadsAs (session : Session) (ledger : String) (reports : List Report) : Prop where
  size : session.outcomeOf (.size ledger) = .ok (.size reports.length)
  listed : session.outcomeOf (.reports ledger) = .ok (.reports reports)
  numbered
    : session.outcomeOf (.entries ledger)
      = .ok (.entries ((List.range' 1 reports.length).zip reports))
  kinds : session.outcomeOf (.kinds ledger) = .ok (.kinds (reports.map Report.kind))
  /-- A fresh cursor yields each report in turn and then finishes. -/
  drained
    : ∀ cursor,
        session.drained cursor ledger false (reports.length + 1)
        = (reports.map fun report => .ok (.yielded none report)) ++ [.ok .finished]
  drainedNumbered
    : ∀ cursor,
        session.drained cursor ledger true (reports.length + 1)
        = (((List.range' 1 reports.length).zip reports).map fun entry =>
            .ok (.yielded (some entry.1) entry.2))
          ++ [.ok .finished]
  /-- A number finds the report of the position that it has as its value, checked or not. -/
  found
    : ∀ (index : Nat) report,
        reports[index]? = some report
        → ∀ (number : Binary64) name,
            number.value? = some ((index + 1 : Nat) : ℚ)
            → session.outcomeOf (.find ledger number name) = .ok (.report report)
              ∧ session.outcomeOf (.findChecked ledger number name) = .ok (.report report)
  /-- So the ids from one on are those of the reports, as far as the format tells them apart. -/
  foundById
    : ∀ (index : Nat) report,
        reports[index]? = some report
        → index < 2 ^ 53
        → ∀ name,
            let id := Binary64.ofNat (index + 1)
            session.outcomeOf (.find ledger id name) = .ok (.report report)
            ∧ session.outcomeOf (.findChecked ledger id name) = .ok (.report report)
  viewed
    : ∀ view,
        session.views.get? view = some ledger
        → session.outcomeOf (.readView view) = .ok (.kinds (reports.map Report.kind))
  weighed
    : ∀ judging overrides,
        session.overrides? judging = some overrides
        → session.outcomeOf (.severities ledger judging)
            = .ok (.severities (reports.map (Report.severity overrides)))
          ∧ session.outcomeOf (.tally (.ledger ledger) judging)
            = .ok (.tally (Tally.ofReports overrides reports))
          ∧ session.outcomeOf (.greatest (.ledger ledger) judging)
            = .ok (.greatest (Severity.greatest? overrides reports))
  /-- The ledger weighs as any other source of its reports does. -/
  weighedAlike
    : ∀ source judging,
        session.weighed? source = some reports
        → session.outcomeOf (.tally (.ledger ledger) judging)
            = session.outcomeOf (.tally source judging)
          ∧ session.outcomeOf (.greatest (.ledger ledger) judging)
            = session.outcomeOf (.greatest source judging)

-----------------------------------------------------------------------------------------
-- Cursors that are drained
-----------------------------------------------------------------------------------------

/-- A cursor that has not finished yields what its ledger holds behind its position, in order, and
then finishes. Witness: induction on what is left; a turn yields the first of it and moves the
cursor past that, and leaves the ledger as it was.
-/
theorem replies_next {session : Session} {name : String} {cursor : Cursor}
    (bound : session.cursors.get? name = some cursor) (unfinished : cursor.finished = false)
    {left : List Report}
    (ahead : (session.ledger cursor.ledger).reports.drop cursor.position = left)
    : (session.replies (List.replicate (left.length + 1) (.next name))).map Reply.outcome
      = ((Ledger.numbered (cursor.position + 1) left).map fun entry =>
          .ok (.yielded (if cursor.numbered then some entry.1 else none) entry.2))
        ++ [.ok .finished] := by
  induction left generalizing session cursor with
  | nil =>
      have answered := (step_next bound).2
      rw [Cursor.answer_of_exhausted ahead] at answered
      exact congrArg (fun outcome => [outcome]) answered
  | cons report rest ih =>
      obtain ⟨moved, answered⟩ := step_next bound
      obtain ⟨yielded, advanced⟩ := Cursor.turn_of_ahead unfinished ahead
      rw [yielded] at answered
      rw [advanced] at moved
      have next : (session.step (.next name)).1.cursors.get? name
          = some { cursor with position := cursor.position + 1 } := by
        rw [moved]
        exact Bindings.get?_set_self ..
      have behind : (session.ledger cursor.ledger).reports.drop (cursor.position + 1) = rest := by
        rw [← List.drop_drop, ahead]
        rfl
      have later := ih next unfinished (by rw [moved]; exact behind)
      rw [List.length_cons, List.replicate_succ, replies_cons, List.map_cons, later, answered]
      rfl

/-- A cursor that was just opened yields all that its ledger holds, and then finishes. -/
theorem drained_eq (session : Session) (cursor ledger : String) (numbered : Bool)
    : let reports := (session.ledger ledger).reports
      session.drained cursor ledger numbered (reports.length + 1)
      = (((List.range' 1 reports.length).zip reports).map fun entry =>
          .ok (.yielded (if numbered then some entry.1 else none) entry.2))
        ++ [.ok .finished] := by
  intro reports
  have kept : ((session.step (.openCursor cursor ledger numbered)).1.ledger ledger).reports
      = reports := by
    rw [step_ledger_self rfl]
    exact List.append_nil _
  have opened := session.step_openCursor cursor ledger numbered
  rw [drained, replies_next opened rfl kept, Ledger.numbered_eq_zip]

-----------------------------------------------------------------------------------------
-- Views that stay open
-----------------------------------------------------------------------------------------

/-- A view is bound anew only where its name is opened. -/
theorem step_views_of_ne {session : Session} {command : Command} {view : String}
    (kept : command.binds? ≠ some (.view view))
    : (session.step command).1.views.get? view = session.views.get? view := by
  have leaves := judge_leaves session command
  simp only [step, after]
  rw [extend_eq]
  generalize session.judge command = verdict at leaves ⊢
  obtain ⟨added, change, outcome⟩ := verdict
  cases leaves with
  | @viewed name ledger =>
      have unequal : view ≠ name := fun same =>
        kept (congrArg (fun name => some (Handle.view name)) same.symm)
      exact Bindings.get?_set_of_ne _ unequal _
  | _ => rfl

/-- So it is over a whole run, by induction on the commands. -/
theorem finish_views_of_ne {session : Session} {commands : List Command} {view : String}
    (kept : ∀ command ∈ commands, command.binds? ≠ some (.view view))
    : (session.finish commands).views.get? view = session.views.get? view := by
  induction commands generalizing session with
  | nil => rfl
  | cons command rest ih =>
      obtain ⟨here, later⟩ := List.forall_mem_cons.mp kept
      rw [finish_cons, ih later, step_views_of_ne here]

-----------------------------------------------------------------------------------------
-- All ways agree
-----------------------------------------------------------------------------------------

/-- A number finds the report of the position that it has as its value. -/
theorem found_of_value? (session : Session) {ledger : String} {index : Nat} {report : Report}
    (shown : (session.ledger ledger).reports[index]? = some report) {number : Binary64}
    (valued : number.value? = some ((index + 1 : Nat) : ℚ)) (name : Option String)
    : session.outcomeOf (.find ledger number name) = .ok (.report report)
      ∧ session.outcomeOf (.findChecked ledger number name) = .ok (.report report) := by
  have issued : (session.ledger ledger).IssuedFor number report := ⟨index, valued, shown⟩
  rw [outcomeOf, outcomeOf, outcome_find, outcome_findChecked,
    Ledger.findChecked_of_canBeId issued.canBeId, Ledger.find_eq_ok_iff.mpr issued]
  exact ⟨rfl, rfl⟩

/-- Every way to read a ledger shows what it holds. -/
theorem readsAs_ledger (session : Session) (ledger : String)
    : session.ReadsAs ledger (session.ledger ledger).reports where
  size := rfl
  listed := rfl
  numbered := by
    simp only [outcomeOf, step_outcome, judge, Verdict.answer, Ledger.entries,
      Ledger.numbered_eq_zip]
  kinds := rfl
  drained cursor := by
    have unnumbered (reports : List Report)
        : ((List.range' 1 reports.length).zip reports).map Prod.snd = reports :=
      List.map_snd_zip (by rw [List.length_range'])
    rw [drained_eq]
    conv_rhs => rw [← unnumbered (session.ledger ledger).reports, List.map_map]
    rfl
  drainedNumbered cursor := session.drained_eq cursor ledger true
  found index report shown number name valued := session.found_of_value? shown valued name
  foundById index report shown small name :=
    session.found_of_value? shown
      (Binary64.toNat?_eq_some_iff.mp (Binary64.toNat?_ofNat small)) name
  viewed view bound := by
    simp only [outcomeOf, step_outcome, judge, Verdict.withBound, bound]
    rfl
  weighed judging overrides given := by
    simp only [outcomeOf, step_outcome, judge, withSource, withOverrides_eq given]
    exact ⟨rfl, rfl, rfl⟩
  weighedAlike source judging weighed := by
    have held : session.weighed? (.ledger ledger) = some (session.ledger ledger).reports := rfl
    simp only [outcomeOf, step_outcome, judge, withSource_eq held, withSource_eq weighed, and_self]

/-- After any run all ways to read a ledger show one list of reports, whichever ledger it is. A view
of it that was opened at any time of the run, and whose name was not opened anew since, reads the
kinds that a fresh reading shows, however much was added to the ledger in between.
-/
theorem read_paths_agree (commands : List Command) (ledger : String)
    : let session := finish {} commands
      ∃ reports,
        session.ReadsAs ledger reports
        ∧ ∀ before view after,
            commands = before ++ .openView view ledger :: after
            → (∀ command ∈ after, command.binds? ≠ some (.view view))
            → session.outcomeOf (.readView view) = session.outcomeOf (.kinds ledger)
              ∧ session.outcomeOf (.readView view) = .ok (.kinds (reports.map Report.kind)) := by
  intro session
  have reads := session.readsAs_ledger ledger
  refine ⟨_, reads, ?_⟩
  intro before view after split kept
  have opened : ((finish {} before).step (.openView view ledger)).1.views.get? view
      = some ledger :=
    Bindings.get?_set_self ..
  have bound : session.views.get? view = some ledger := by
    rw [show session = finish {} commands from rfl, split, finish_append, finish_cons,
      finish_views_of_ne kept, opened]
  have viewed := reads.viewed view bound
  exact ⟨viewed.trans reads.kinds.symm, viewed⟩

end Session

end CompilerReports
