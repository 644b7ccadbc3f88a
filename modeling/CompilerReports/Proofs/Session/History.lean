import CompilerReports.Proofs.Binary64.Whole
import CompilerReports.Proofs.Session.Additions

/-! The history of every ledger is append-only. A ledger's content is a prefix of each later one,
so an id that was given out keeps its report; and the ids that a run gives out for a ledger are
one, two, three and so on, up to the ledger's size.
-/

namespace CompilerReports

-----------------------------------------------------------------------------------------
-- Ids in a ledger that grows
-----------------------------------------------------------------------------------------

namespace Ledger

/-- Appended reports are found under the ids that follow the size. -/
theorem get?_append_size (ledger : Ledger) (more : List Report) (index : Nat)
    : (ledger.append more).get? (ledger.size + 1 + index) = more[index]? := by
  have next : ledger.size + 1 + index = ledger.size + index + 1 := Nat.add_right_comm ..
  rw [next]
  simp only [get?, append, size]
  rw [List.getElem?_append_right (Nat.le_add_right ..), Nat.add_sub_cancel_left]

/-- A number whose value is the id of a report finds that report. -/
theorem find_eq_ok {ledger : Ledger} {id : Nat} {report : Report} {number : Binary64}
    (found : ledger.get? id = some report) (same : number.toNat? = some id)
    : ledger.find number = .ok report := by
  simp only [find, same, Option.bind_some, found]

/-- A prefix of a ledger's content finds the same reports. -/
theorem get?_of_prefix {earlier later : Ledger} {id : Nat} {report : Report}
    (grown : earlier.reports <+: later.reports) (found : earlier.get? id = some report)
    : later.get? id = some report := by
  obtain ⟨more, joined⟩ := grown
  have same : later = earlier.append more := by
    cases later
    exact congrArg Ledger.mk joined.symm
  rw [same]
  exact get?_append_of_get? found more

end Ledger

namespace Session

-----------------------------------------------------------------------------------------
-- Contents only grow
-----------------------------------------------------------------------------------------

/-- One command keeps what a ledger holds, in its place. -/
theorem ledger_prefix_step (session : Session) (command : Command) (name : String)
    : (session.ledger name).reports <+: ((session.step command).1.ledger name).reports := by
  by_cases named : command.ledger? = some name
  · rw [step_ledger_self named]
    exact List.prefix_append ..
  · simp [step_ledger_of_ne named]

/-- Any number of commands keep what a ledger holds, by induction on the commands. -/
theorem ledger_prefix_finish (session : Session) (commands : List Command) (name : String)
    : (session.ledger name).reports <+: ((session.finish commands).ledger name).reports := by
  induction commands generalizing session with
  | nil => exact List.prefix_rfl
  | cons command rest ih =>
      exact (session.ledger_prefix_step command name).trans (ih (session.step command).1)

-----------------------------------------------------------------------------------------
-- Ids are given out without a gap
-----------------------------------------------------------------------------------------

/-- The ids that a run gives out for a ledger, in the order of the replies. -/
def idsGiven (name : String) (commands : List Command) (replies : List Reply) : List Nat :=
  (commands.zip replies).flatMap fun (command, reply) =>
    if command.ledger? = some name then command.issued reply.outcome else []

/-- A command on a ledger gives out the ids that follow the ledger's size, one for each report
that it adds.
-/
theorem PoliciesResolved.step_numbered {session : Session} (resolved : session.PoliciesResolved)
    {command : Command} {name : String} (named : command.ledger? = some name)
    : (session.step command).1.ledger name
        = (session.ledger name).append (session.contribution command)
      ∧ command.issued (session.step command).2.outcome
        = List.range' (session.nextId name) (session.contribution command).length := by
  have adds := judge_adds resolved command
  refine ⟨?_, adds.issued name named⟩
  rw [step_ledger_self named, adds.added]

/-- A run appends to a ledger one report for each id that it gives out there, and the ids follow
the size that the ledger had. Witness: induction on the commands; what one command gives out
ends where the rest of the run starts.
-/
theorem PoliciesResolved.run_numbered {session : Session} (resolved : session.PoliciesResolved)
    (commands : List Command) (name : String)
    : ∃ added,
        (session.finish commands).ledger name = (session.ledger name).append added
        ∧ idsGiven name commands (session.replies commands)
          = List.range' (session.nextId name) added.length := by
  induction commands generalizing session with
  | nil =>
      refine ⟨[], ?_, rfl⟩
      simp [Ledger.append]
  | cons command rest ih =>
      obtain ⟨later, grown, numbered⟩ := ih (resolved.step command)
      by_cases named : command.ledger? = some name
      · obtain ⟨here, issued⟩ := resolved.step_numbered named
        refine ⟨session.contribution command ++ later, ?_, ?_⟩
        · rw [finish_cons, grown, here, Ledger.append_append]
        · have next : (session.step command).1.nextId name
              = session.nextId name + (session.contribution command).length := by
            rw [nextId, here, Ledger.size_append, nextId]
            omega
          rw [next] at numbered
          rw [List.length_append, ← List.range'_append_1, ← issued, ← numbered]
          simp [idsGiven, named]
      · have here : (session.step command).1.ledger name = session.ledger name :=
          step_ledger_of_ne named
        refine ⟨later, ?_, ?_⟩
        · rw [finish_cons, grown, here]
        · have next : (session.step command).1.nextId name = session.nextId name := by
            rw [nextId, here, nextId]
          rw [next] at numbered
          rw [← numbered]
          simp [idsGiven, named]

-----------------------------------------------------------------------------------------
-- Histories of whole runs
-----------------------------------------------------------------------------------------

/-- A command that gives out no id leaves every ledger as it was. -/
theorem PoliciesResolved.step_ledger_of_no_id {session : Session}
    (resolved : session.PoliciesResolved) {command : Command}
    (silent : command.issued (session.step command).2.outcome = []) (name : String)
    : (session.step command).1.ledger name = session.ledger name := by
  by_cases named : command.ledger? = some name
  · obtain ⟨here, issued⟩ := resolved.step_numbered named
    rw [silent] at issued
    have none : session.contribution command = [] := by
      simpa using (congrArg List.length issued).symm
    rw [here, none]
    simp [Ledger.append]
  · exact step_ledger_of_ne named

/-- A report that is added under an id is found under it in every later session. -/
theorem PoliciesResolved.find_of_issued {session : Session} (resolved : session.PoliciesResolved)
    {command : Command} {name : String} (named : command.ledger? = some name)
    {id : Nat} {report : Report}
    (given : (id, report) ∈ (command.issued (session.step command).2.outcome).zip
      (session.contribution command))
    (after : List Command) {number : Binary64} (same : number.toNat? = some id)
    : (((session.step command).1.finish after).ledger name).find number = .ok report := by
  obtain ⟨here, issued⟩ := resolved.step_numbered named
  rw [issued] at given
  obtain ⟨index, inside, shown⟩ := List.mem_iff_getElem.mp given
  rw [List.getElem_zip, List.getElem_range', Nat.one_mul] at shown
  obtain ⟨position, content⟩ := Prod.mk.inj shown
  have found : ((session.step command).1.ledger name).get? id = some report := by
    rw [here, ← position, nextId, Ledger.get?_append_size, ← content]
    exact List.getElem?_eq_getElem ..
  exact Ledger.find_eq_ok (Ledger.get?_of_prefix (ledger_prefix_finish _ after name) found) same

/-- Every ledger's history is append-only, with stable ids. Over any run, the ids that are given
out for a ledger are one, two, three and so on up to its size. At any point of the run, what the
ledger holds is a prefix of what it holds in the end; a command that names it adds what the
command is to add, under as many ids, and each such report is still found under its id in the
end, by any number with the id's value; and a command that gives out no id, or names another
ledger, leaves it as it was.
-/
theorem history_append_only (commands : List Command) (name : String)
    : idsGiven name commands (replies {} commands)
        = List.range' 1 ((finish {} commands).ledger name).size
      ∧ ∀ before command after,
          commands = before ++ command :: after
          → let session := finish {} before
            let next := (session.step command).1
            let final := finish {} commands
            let ids := command.issued (session.step command).2.outcome
            (session.ledger name).reports <+: (final.ledger name).reports
            ∧ (command.ledger? = some name
              → next.ledger name = (session.ledger name).append (session.contribution command)
                ∧ ids.length = (session.contribution command).length
                ∧ ∀ id report,
                    (id, report) ∈ ids.zip (session.contribution command)
                    → (id ≤ Nat.pow 2 53 → (Binary64.ofNat id).toNat? = some id)
                      ∧ ∀ number,
                          number.toNat? = some id
                          → (final.step (.find name number none)).2.outcome
                            = .ok (.report report))
            ∧ (command.ledger? ≠ some name ∨ ids = []
              → next.ledger name = session.ledger name) := by
  have start : Reachable {} := ⟨[], rfl⟩
  constructor
  · obtain ⟨added, grown, numbered⟩ := start.policiesResolved.run_numbered commands name
    rw [numbered, grown]
    simp [Ledger.append, Ledger.size, ledger, nextId, Bindings.get?]
  · rintro before command after rfl
    have resolved := (start.finish before).policiesResolved
    simp only [finish_append, finish_cons]
    refine ⟨?_, ?_, ?_⟩
    · exact ((finish {} before).ledger_prefix_step command name).trans
        (ledger_prefix_finish _ after name)
    · intro named
      obtain ⟨here, issued⟩ := resolved.step_numbered named
      refine ⟨here, by rw [issued, List.length_range'], ?_⟩
      intro id report given
      refine ⟨Binary64.toNat?_ofNat, ?_⟩
      intro number same
      have found := resolved.find_of_issued named given after same
      simp only [step_outcome, judge, found, Verdict.ofResult, Verdict.make]
    · intro unchanged
      rcases unchanged with other | silent
      · exact step_ledger_of_ne other
      · exact resolved.step_ledger_of_no_id silent name

end Session

end CompilerReports
