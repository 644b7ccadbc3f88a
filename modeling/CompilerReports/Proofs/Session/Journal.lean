import CompilerReports.Proofs.Session.Failures
import CompilerReports.Proofs.Session.History

/-! The journal tells exactly what happened. What a command writes is read off the ledgers before
and after it and the failure it ends in: a line for each entry that a ledger has gained, then a
line for the fault, and nothing where tracing is off. Over a run that traces whatever it adds, the
lines of additions to a ledger are those of the ledger's entries.
-/

namespace CompilerReports

-----------------------------------------------------------------------------------------
-- Entries of a ledger that grows
-----------------------------------------------------------------------------------------

namespace Ledger

/-- Numbering joined reports goes on behind the first ones, by induction on them. -/
theorem numbered_append (id : Nat) (left right : List Report)
    : numbered id (left ++ right) = numbered id left ++ numbered (id + left.length) right := by
  induction left generalizing id with
  | nil => rfl
  | cons report rest ih =>
      have next : id + 1 + rest.length = id + (rest.length + 1) := by omega
      simp only [List.cons_append, numbered, ih, next, List.length_cons]

theorem length_numbered (id : Nat) (reports : List Report)
    : (numbered id reports).length = reports.length := by
  induction reports generalizing id with
  | nil => rfl
  | cons report rest ih => simp only [numbered, List.length_cons, ih]

/-- Appended reports are entered behind the others, under the ids that follow the size. -/
theorem entries_append (ledger : Ledger) (more : List Report)
    : (ledger.append more).entries = ledger.entries ++ numbered (ledger.size + 1) more := by
  simp only [entries, append, numbered_append, size, Nat.add_comm 1]

theorem length_entries (ledger : Ledger)
    : ledger.entries.length = ledger.size :=
  length_numbered 1 ledger.reports

end Ledger

-----------------------------------------------------------------------------------------
-- Lines
-----------------------------------------------------------------------------------------

namespace Event

/-- The line about an entry of a ledger: the id, the category and the kind of the report, and
its site as a file with the line and the column in parentheses.
-/
def entryLine (entry : Nat × Report) : String :=
  let (id, report) := entry
  let site := report.site.file ++ "(" ++ report.site.line.text ++ ", " ++ report.site.column.text
    ++ ")"
  line (.added id report.category.name report.kind site)

/-- The line about the failure of a command, if it failed for a fault. -/
def faultLines : Except Failure Answer → List String
  | .error (.refused (.fault fault)) => [line (.faulted fault.tag fault.message)]
  | _ => []

/-- What an event calls itself in its line. -/
def sort : Event → String
  | .added .. => "report-added"
  | .faulted .. => "consistency-fault"

/-- What the lines of events of one sort start with. -/
def start (sort : String) : List Char :=
  lineStart.toList ++ '{' :: Json.fieldChars ("event", .text sort)

/-- The line of an event starts with the event's sort, by the two sorts. -/
theorem exists_line_eq_start (event : Event)
    : ∃ rest, event.line.toList = start event.sort ++ rest := by
  cases event <;>
    · simp only [line, Json.render, toJson, Json.chars, Json.fieldsChars, start, sort,
        String.toList_append, String.toList_ofList, List.append_assoc, List.cons_append]
      exact ⟨_, rfl⟩

/-- (isAddition text) holds of the lines that tell of an added report. -/
def isAddition (text : String) : Bool := (start "report-added").isPrefixOf text.toList

/-- The line about an entry is known by its start. -/
theorem isAddition_entryLine (entry : Nat × Report)
    : isAddition (entryLine entry) = true := by
  obtain ⟨rest, shown⟩ : ∃ rest, (entryLine entry).toList = start "report-added" ++ rest :=
    exists_line_eq_start (.added ..)
  rw [isAddition, shown, List.isPrefixOf_iff_prefix]
  exact List.prefix_append ..

/-- The line about a fault starts otherwise. -/
theorem isAddition_of_mem_faultLines {outcome : Except Failure Answer} {text : String}
    (member : text ∈ faultLines outcome)
    : isAddition text = false := by
  unfold faultLines at member
  split at member
  · cases List.mem_singleton.mp member
    obtain ⟨rest, shown⟩ : ∃ rest, _ = start "consistency-fault" ++ rest :=
      exists_line_eq_start (.faulted ..)
    rw [isAddition, shown]
    rfl
  · cases member

/-- Of the lines of a command, those of additions are the ones about its entries. -/
theorem filter_isAddition (entries : List (Nat × Report)) (outcome : Except Failure Answer)
    : (entries.map entryLine ++ faultLines outcome).filter isAddition = entries.map entryLine := by
  have additions : (entries.map entryLine).filter isAddition = entries.map entryLine := by
    rw [List.filter_eq_self]
    intro text member
    obtain ⟨entry, _, rfl⟩ := List.mem_map.mp member
    exact isAddition_entryLine entry
  have faults : (faultLines outcome).filter isAddition = [] := by
    rw [List.filter_eq_nil_iff]
    intro text member
    simp [isAddition_of_mem_faultLines member]
  rw [List.filter_append, additions, faults, List.append_nil]

end Event

/-- A refused command gives out no id, by the cases of the command. -/
theorem Command.issued_of_refused (command : Command) (refusal : Refusal)
    : command.issued (.error (.refused refusal)) = [] := by
  cases command <;> rfl

namespace Session

/-- The flag that is set after a command, where the given one was set before. -/
def flagAfter (flag : Option String) : Command → Option String
  | .setTracing given => given
  | _ => flag

/-- Tracing is in force as the flag that was set last says. -/
theorem step_tracing {session : Session} {flag : Option String}
    (set : session.tracing = Tracing.isEnabled flag) (command : Command)
    : (session.step command).1.tracing = Tracing.isEnabled (flagAfter flag command) := by
  have leaves := judge_leaves session command
  cases command with
  | setTracing given => rfl
  | _ =>
      simp only [step, after, flagAfter]
      rw [extend_eq]
      generalize session.judge _ = verdict at leaves ⊢
      obtain ⟨added, change, outcome⟩ := verdict
      cases leaves <;> exact set

/-- Over a run too, by induction on the commands. -/
theorem finish_tracing {session : Session} {flag : Option String}
    (set : session.tracing = Tracing.isEnabled flag) (commands : List Command)
    : (session.finish commands).tracing = Tracing.isEnabled (commands.foldl flagAfter flag) := by
  induction commands generalizing session flag with
  | nil => exact set
  | cons command rest ih => exact ih (step_tracing set command)

-----------------------------------------------------------------------------------------
-- What a command appends, read off the ledgers
-----------------------------------------------------------------------------------------

/-- The entries that the ledger a command names has gained by the command. -/
def gained (session : Session) (command : Command) : List (Nat × Report) :=
  match command.ledger? with
  | some name =>
      ((session.step command).1.ledger name).entries.drop (session.ledger name).size
  | none => []

/-- The entries gained are the reports that the command adds, under the ids that follow. -/
theorem gained_of_named {session : Session} {command : Command} {name : String}
    (named : command.ledger? = some name)
    : session.gained command
      = Ledger.numbered (session.nextId name) (session.judge command).added := by
  simp only [gained, named]
  rw [step_ledger_self named, Ledger.entries_append, ← Ledger.length_entries, List.drop_left,
    Ledger.length_entries]
  rfl

/-- A ledger's entries after a command are those before, and those gained if it was named. -/
theorem step_entries (session : Session) (command : Command) (name : String)
    : ((session.step command).1.ledger name).entries
      = (session.ledger name).entries
        ++ if command.ledger? = some name then session.gained command else [] := by
  by_cases named : command.ledger? = some name
  · rw [if_pos named, gained_of_named named, step_ledger_self named, Ledger.entries_append]
    rfl
  · rw [if_neg named, step_ledger_of_ne named, List.append_nil]

/-- A command that names no ledger is to add nothing. -/
theorem contribution_of_unnamed {session : Session} {command : Command}
    (unnamed : command.ledger? = none)
    : session.contribution command = [] := by
  cases command with
  | add ledger report => cases unnamed
  | emit carrier draft | abort carrier draft => cases unnamed
  | emitRejected ledger policy site stack => cases unnamed
  | _ => rfl

/-- A command that leaves the ledger it names as it was has gained no entry. -/
theorem gained_of_unchanged {session : Session} {command : Command}
    (unchanged
      : ∀ name,
          command.ledger? = some name
          → (session.step command).1.ledger name = session.ledger name)
    : session.gained command = [] := by
  unfold gained
  split
  · rename_i name named
    rw [unchanged name named, ← Ledger.length_entries, List.drop_length]
  · rfl

/-- What is refused has gained nothing. -/
theorem PoliciesResolved.gained_of_refused {session : Session}
    (resolved : session.PoliciesResolved) {command : Command} {refusal : Refusal}
    (refused : (session.step command).2.outcome = .error (.refused refusal))
    : session.gained command = [] := by
  have silent : command.issued (session.step command).2.outcome = [] := by
    rw [refused, command.issued_of_refused refusal]
  exact gained_of_unchanged fun name _ => resolved.step_ledger_of_no_id silent name

/-- A compilation that is given up has gained the one report that its error carries. -/
theorem gained_of_aborted {session : Session} {command : Command} {ledger : String} {id : Nat}
    {report : Report}
    (aborted : (session.step command).2.outcome = .error (.aborted ledger id report))
    : session.gained command = [(id, report)] := by
  obtain ⟨carrier, draft, rfl, minted, rfl, rfl⟩ := eq_abort_of_aborted aborted
  have named : (Command.abort carrier draft).ledger? = some carrier.ledger := rfl
  rw [gained_of_named named]
  simp only [judge, Verdict.ofResult, minted, Ledger.numbered]

/-- The events of a verdict, line by line: its additions under the ids from the next one on, and
its fault, by the causes of failure.
-/
theorem map_line_events (session : Session) (command : Command) (verdict : Verdict)
    : (session.events command verdict).map Event.line
      = (Ledger.numbered ((command.ledger?.map session.nextId).getD 1) verdict.added).map
          Event.entryLine
        ++ Event.faultLines verdict.outcome := by
  simp only [events, List.map_append, List.map_map]
  refine congrArg₂ (· ++ ·) rfl ?_
  cases verdict.outcome with
  | ok answer => rfl
  | error failure =>
      cases failure with
      | refused refusal => cases refusal <;> rfl
      | aborted ledger id report => rfl
      | unbound name => rfl

/-- Where tracing is on a command writes a line for each entry that it has brought about, and then
one for the fault that it ended in; where tracing is off it writes none.
-/
theorem PoliciesResolved.step_trace {session : Session} (resolved : session.PoliciesResolved)
    (command : Command)
    : (session.step command).2.trace
      = if session.tracing then
          (session.gained command).map Event.entryLine
            ++ Event.faultLines (session.step command).2.outcome
        else
          [] := by
  have written : (session.step command).2.trace
      = if session.tracing then
          (session.events command (session.judge command)).map Event.line
        else
          [] := rfl
  have entered : Ledger.numbered ((command.ledger?.map session.nextId).getD 1)
      (session.judge command).added = session.gained command := by
    cases named : command.ledger? with
    | some name => exact (gained_of_named named).symm
    | none =>
        rw [(judge_adds resolved command).added, contribution_of_unnamed named]
        simp only [gained, named]
        rfl
  rw [written, map_line_events, entered, step_outcome]

-----------------------------------------------------------------------------------------
-- What a run writes about a ledger
-----------------------------------------------------------------------------------------

/-- The lines of additions that the commands naming a ledger wrote, in the order of the replies. -/
def additionLines (name : String) (commands : List Command) (replies : List Reply) : List String :=
  (commands.zip replies).flatMap fun (command, reply) =>
    if command.ledger? = some name then reply.trace.filter Event.isAddition else []

/-- (session.TracesAdditions name commands) holds when tracing is on at every command of the run
that changes the ledger.
-/
def TracesAdditions (session : Session) (name : String) (commands : List Command) : Prop :=
  ∀ before command after,
    commands = before ++ command :: after
    → let reached := session.finish before
      (reached.step command).1.ledger name ≠ reached.ledger name → reached.tracing = true

/-- A command that names a ledger, and is traced if it changes the ledger, writes the lines of the
entries that the ledger has gained.
-/
theorem PoliciesResolved.additions_of_step {session : Session}
    (resolved : session.PoliciesResolved) {command : Command} {name : String}
    (named : command.ledger? = some name)
    (traced
      : (session.step command).1.ledger name ≠ session.ledger name → session.tracing = true)
    : (session.step command).2.trace.filter Event.isAddition
      = (session.gained command).map Event.entryLine := by
  rw [resolved.step_trace command]
  by_cases tracing : session.tracing = true
  · rw [if_pos tracing, Event.filter_isAddition]
  · have same : (session.step command).1.ledger name = session.ledger name := by
      by_contra changed
      exact tracing (traced changed)
    have none : session.gained command = [] := by
      apply gained_of_unchanged
      intro other namedToo
      cases Option.some.inj (named.symm.trans namedToo)
      exact same
    rw [if_neg tracing, none]
    rfl

/-- A run that traces what it adds to a ledger writes the lines of the entries that the ledger
gains, by induction on the commands.
-/
theorem PoliciesResolved.run_additionLines {session : Session}
    (resolved : session.PoliciesResolved) {name : String} {commands : List Command}
    (traced : session.TracesAdditions name commands)
    : ((session.finish commands).ledger name).entries.map Event.entryLine
      = (session.ledger name).entries.map Event.entryLine
        ++ additionLines name commands (session.replies commands) := by
  induction commands generalizing session with
  | nil => exact (List.append_nil _).symm
  | cons command rest ih =>
      have later : (session.step command).1.TracesAdditions name rest := by
        rintro before next after rfl
        exact traced (command :: before) next after rfl
      rw [finish_cons, ih (resolved.step command) later, step_entries, List.map_append,
        List.append_assoc]
      refine congrArg _ ?_
      simp only [additionLines, replies_cons, List.zip_cons_cons, List.flatMap_cons]
      refine congrArg (· ++ _) ?_
      by_cases named : command.ledger? = some name
      · rw [if_pos named, if_pos named]
        exact (resolved.additions_of_step named (traced [] command rest rfl)).symm
      · rw [if_neg named, if_neg named]
        rfl

/-- The journal of a session is exact. Whether a command is traced is told by the flag that was set
last. The entries that a command has brought about are what the ledger it names has gained, and
no other ledger gains any. If it is traced, the command writes one line for each of these entries
in their order, with the id, the category, the kind and the site of the report, and then one line
for its fault if it failed for one; if not, it writes none. So what fails without a fault, for
want of a category's bounds or for a bad file URL, writes nothing at all, and a compilation that is
given up writes the line of its report alone. And a run that is traced whenever it adds to a ledger
has written, in order, the lines of exactly the entries that the ledger then has.
-/
theorem journal_exact (commands : List Command)
    : (∀ command,
        let session := finish {} commands
        let next := (session.step command).1
        let reply := (session.step command).2
        let entries := session.gained command
        session.tracing = Tracing.isEnabled (commands.foldl flagAfter none)
        ∧ (∀ name,
            (next.ledger name).entries
            = (session.ledger name).entries
              ++ if command.ledger? = some name then entries else [])
        ∧ (command.ledger? = none → entries = [])
        ∧ (session.tracing = true
          → reply.trace = entries.map Event.entryLine ++ Event.faultLines reply.outcome)
        ∧ (session.tracing = false → reply.trace = [])
        ∧ (∀ refusal,
            reply.outcome = .error (.refused refusal)
            → (∀ misuse, refusal ≠ .fault misuse)
            → reply.trace = [])
        ∧ ∀ ledger id report,
            reply.outcome = .error (.aborted ledger id report)
            → reply.trace = if session.tracing then [Event.entryLine (id, report)] else [])
      ∧ ∀ name,
          TracesAdditions {} name commands
          → additionLines name commands (replies {} commands)
            = ((finish {} commands).ledger name).entries.map Event.entryLine := by
  refine ⟨?_, ?_⟩
  · intro command session next reply entries
    have resolved := (reachable_empty.finish commands).policiesResolved
    have written : reply.trace
        = if session.tracing then
            entries.map Event.entryLine ++ Event.faultLines reply.outcome
          else
            [] := resolved.step_trace command
    refine ⟨?_, session.step_entries command, ?_, ?_, ?_, ?_, ?_⟩
    · have unset : tracing {} = Tracing.isEnabled none := rfl
      exact finish_tracing unset commands
    · intro unnamed
      simp only [entries, gained, unnamed]
    · intro tracing
      rw [written, if_pos tracing]
    · intro quiet
      rw [written, quiet]
      rfl
    · intro refusal refused faultless
      have none : entries = [] := resolved.gained_of_refused refused
      rw [written, none, refused]
      cases refusal with
      | fault misuse => exact absurd rfl (faultless misuse)
      | noCategory name => exact ite_self _
      | url cause => exact ite_self _
    · intro ledger id report aborted
      have one : entries = [(id, report)] := gained_of_aborted aborted
      rw [written, one, aborted]
      rfl
  · intro name traced
    exact (reachable_empty.policiesResolved.run_additionLines traced).symm

-- An unknown kind under a name of no category can still be a fault, and is then told of.
example
    : let draft : Draft := { category := "constructor", payload := ⟨"made-up", []⟩ }
      let message := "report kind made-up is outside the constructor range [undefined .. undefined]"
      (replies {} [.setTracing (some "1"), .mint none draft]).map Reply.trace
        = [[], [Event.line (.faulted "kind-outside-category" message)]] := by
  rfl

end Session

end CompilerReports
