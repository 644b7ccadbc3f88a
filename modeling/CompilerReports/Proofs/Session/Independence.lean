import CompilerReports.Proofs.Session.Agreement

/-! Two parties that work on ledgers of their own do not interfere. However their commands are
interleaved, each party is shown what it would be shown if it worked alone, and every ledger comes
to hold the same; so the parties may as well take their turns one after the other, in either order.
-/

namespace CompilerReports

-----------------------------------------------------------------------------------------
-- Schedules
-----------------------------------------------------------------------------------------

/-- Those who share a session. -/
inductive Party where
  | left
  | right
  deriving DecidableEq

/-- There are no parties but the two. -/
theorem Party.eq_or_eq {one other : Party} (different : one ≠ other) (party : Party)
    : party = one ∨ party = other := by
  cases one <;> cases other <;> cases party <;> simp_all

/-- A command of one of the parties. A list of moves is a schedule, an interleaving of the commands
of both.
-/
structure Move where
  party : Party
  command : Command

/-- The commands of one party, in the order of the schedule. -/
def commandsOf (party : Party) (schedule : List Move) : List Command :=
  (schedule.filter fun move => move.party == party).map Move.command

/-- The same commands without the interleaving: all of one party, then all of the other. -/
def inTurn (one other : Party) (schedule : List Move) : List Move :=
  (commandsOf one schedule).map (Move.mk one) ++ (commandsOf other schedule).map (Move.mk other)

theorem commandsOf_cons (party : Party) (move : Move) (rest : List Move)
    : commandsOf party (move :: rest)
      = if move.party = party then
          move.command :: commandsOf party rest
        else
          commandsOf party rest := by
  by_cases own : move.party = party <;> simp [commandsOf, own]

theorem mem_of_mem_inTurn {one other : Party} {schedule : List Move} {move : Move}
    (member : move ∈ inTurn one other schedule)
    : move ∈ schedule := by
  simp only [inTurn, commandsOf, List.map_map, List.mem_append, List.mem_map, List.mem_filter,
    beq_iff_eq, Function.comp_apply] at member
  rcases member with ⟨own, ⟨inside, rfl⟩, rfl⟩ | ⟨own, ⟨inside, rfl⟩, rfl⟩
  · exact inside
  · exact inside

theorem commandsOf_map_mk (party : Party) (commands : List Command)
    : commandsOf party (commands.map (Move.mk party)) = commands := by
  induction commands with
  | nil => rfl
  | cons command rest ih => rw [List.map_cons, commandsOf_cons, if_pos rfl, ih]

theorem commandsOf_map_mk_of_ne {one other : Party} (different : one ≠ other)
    (commands : List Command)
    : commandsOf other (commands.map (Move.mk one)) = [] := by
  induction commands with
  | nil => rfl
  | cons command rest ih => rw [List.map_cons, commandsOf_cons, if_neg different, ih]

theorem commandsOf_append (party : Party) (first second : List Move)
    : commandsOf party (first ++ second) = commandsOf party first ++ commandsOf party second := by
  simp [commandsOf]

/-- Taking turns leaves each party its commands in their order. -/
theorem commandsOf_inTurn {one other : Party} (different : one ≠ other) (schedule : List Move)
    (party : Party)
    : commandsOf party (inTurn one other schedule) = commandsOf party schedule := by
  rw [inTurn, commandsOf_append]
  rcases Party.eq_or_eq different party with rfl | rfl
  · rw [commandsOf_map_mk, commandsOf_map_mk_of_ne different.symm, List.append_nil]
  · rw [commandsOf_map_mk, commandsOf_map_mk_of_ne different, List.nil_append]

theorem map_command_inTurn (one other : Party) (schedule : List Move)
    : (inTurn one other schedule).map Move.command
      = commandsOf one schedule ++ commandsOf other schedule := by
  simp [inTurn, Function.comp_def]

-----------------------------------------------------------------------------------------
-- What a party is shown
-----------------------------------------------------------------------------------------

/-- What a reply shows of its own command: the value or the failure, and the journal's lines. The
sizes of all ledgers are left out.
-/
def Reply.shown (reply : Reply) : Except Failure Answer × List String :=
  (reply.outcome, reply.trace)

namespace Session

/-- What one party is shown over a schedule, reply after reply. -/
def shownTo (session : Session) (party : Party) (schedule : List Move)
    : List (Except Failure Answer × List String) :=
  ((schedule.zip (session.replies (schedule.map Move.command))).filter fun replied =>
    replied.1.party == party).map fun replied => replied.2.shown

theorem shownTo_cons (session : Session) (party : Party) (move : Move) (rest : List Move)
    : session.shownTo party (move :: rest)
      = if move.party = party then
          (session.step move.command).2.shown :: (session.step move.command).1.shownTo party rest
        else
          (session.step move.command).1.shownTo party rest := by
  by_cases own : move.party = party <;> simp [shownTo, own]

/-- What a party is shown over joined schedules, by induction on the first. -/
theorem shownTo_append (session : Session) (party : Party) (first second : List Move)
    : session.shownTo party (first ++ second)
      = session.shownTo party first
        ++ (session.finish (first.map Move.command)).shownTo party second := by
  induction first generalizing session with
  | nil => rfl
  | cons move rest ih =>
      rw [List.cons_append, shownTo_cons, shownTo_cons, ih]
      split <;> rfl

/-- A party is shown every reply to commands that are all its own. -/
theorem shownTo_map_mk (session : Session) (party : Party) (commands : List Command)
    : session.shownTo party (commands.map (Move.mk party))
      = (session.replies commands).map Reply.shown := by
  induction commands generalizing session with
  | nil => rfl
  | cons command rest ih =>
      rw [List.map_cons, shownTo_cons, if_pos rfl, ih]
      rfl

/-- A party is shown no reply to commands of the other. -/
theorem shownTo_map_mk_of_ne (session : Session) {one other : Party} (different : one ≠ other)
    (commands : List Command)
    : session.shownTo other (commands.map (Move.mk one)) = [] := by
  induction commands generalizing session with
  | nil => rfl
  | cons command rest ih => rw [List.map_cons, shownTo_cons, if_neg different, ih]

/-- When the parties take turns, the second is shown what it is shown after all of the first. -/
theorem shownTo_inTurn (session : Session) {one other : Party} (different : one ≠ other)
    (schedule : List Move)
    : let mine := commandsOf one schedule
      let theirs := commandsOf other schedule
      session.shownTo one (inTurn one other schedule)
          = (session.replies mine).map Reply.shown
        ∧ session.shownTo other (inTurn one other schedule)
          = ((session.finish mine).replies theirs).map Reply.shown := by
  have commands : ((commandsOf one schedule).map (Move.mk one)).map Move.command
      = commandsOf one schedule := by
    simp [Function.comp_def]
  constructor
  · rw [inTurn, shownTo_append, shownTo_map_mk, shownTo_map_mk_of_ne _ different.symm,
      List.append_nil]
  · rw [inTurn, shownTo_append, shownTo_map_mk_of_ne _ different, commands, shownTo_map_mk,
      List.nil_append]

-----------------------------------------------------------------------------------------
-- A party alone
-----------------------------------------------------------------------------------------

/-- Over a schedule whose other commands keep off what a party keeps to, the party is shown what it
is shown alone, and its ledger comes to hold the same. Witness: induction on the schedule; the
agreement with the session of the party alone is kept by both kinds of moves.
-/
theorem AgreeOn.run {ledger : String} {handles : Handle → Prop} {session alone : Session}
    (agree : AgreeOn ledger handles session alone) {party : Party} {schedule : List Move}
    (own : ∀ move ∈ schedule, move.party = party → move.command.KeepsTo ledger handles)
    (foreign : ∀ move ∈ schedule, move.party ≠ party → move.command.KeepsOff ledger handles)
    : session.shownTo party schedule
        = (alone.replies (commandsOf party schedule)).map Reply.shown
      ∧ AgreeOn ledger handles (session.finish (schedule.map Move.command))
          (alone.finish (commandsOf party schedule)) := by
  induction schedule generalizing session alone with
  | nil => exact ⟨rfl, agree⟩
  | cons move rest ih =>
      have ownLater := fun later member => own later (List.mem_cons_of_mem _ member)
      have foreignLater := fun later member => foreign later (List.mem_cons_of_mem _ member)
      rw [shownTo_cons, commandsOf_cons]
      by_cases mine : move.party = party
      · have keeps := own move List.mem_cons_self mine
        obtain ⟨outcome, trace⟩ := agree.step_reply keeps
        obtain ⟨shown, later⟩ := ih (agree.step_both keeps) ownLater foreignLater
        rw [if_pos mine, if_pos mine, replies_cons, List.map_cons, shown]
        exact ⟨congrArg (· :: _) (Prod.ext outcome trace), later⟩
      · have keeps := foreign move List.mem_cons_self mine
        rw [if_neg mine, if_neg mine]
        exact ih (agree.step_left keeps) ownLater foreignLater

/-- A ledger that no command names stays as it is, by induction on the commands. -/
theorem ledger_finish_of_unnamed (session : Session) {name : String} {commands : List Command}
    (unnamed : ∀ command ∈ commands, command.ledger? ≠ some name)
    : (session.finish commands).ledger name = session.ledger name := by
  induction commands generalizing session with
  | nil => rfl
  | cons command rest ih =>
      have later := fun other member => unnamed other (List.mem_cons_of_mem _ member)
      rw [finish_cons, ih _ later, step_ledger_of_ne (unnamed command List.mem_cons_self)]

-----------------------------------------------------------------------------------------
-- Parties apart
-----------------------------------------------------------------------------------------

/-- The parties of a schedule work on ledgers of their own: they name no others, read no handle that
the other party binds, and leave the tracing flag alone. A view or a cursor that is bound from the
start is read by a party only if it is of the party's own ledger.
-/
structure Apart (start : Session) (ledgers : Party → String) (schedule : List Move) : Prop where
  distinct : ledgers .left ≠ ledgers .right
  named
    : ∀ move ∈ schedule, ∀ name, move.command.ledger? = some name → name = ledgers move.party
  unbound
    : ∀ move ∈ schedule, ∀ other ∈ schedule,
        move.party ≠ other.party
        → ∀ handle, move.command.binds? = some handle → handle ∉ other.command.reads
  untraced : ∀ move ∈ schedule, ∀ flag, move.command ≠ .setTracing flag
  leads
    : ∀ move ∈ schedule, ∀ handle ∈ move.command.reads, start.Leads (ledgers move.party) handle

namespace Apart

variable {start : Session} {ledgers : Party → String} {schedule : List Move}

/-- Parties that are apart stay so in any schedule of moves among the same. -/
theorem mono (apart : Apart start ledgers schedule) {fewer : List Move}
    (among : ∀ move ∈ fewer, move ∈ schedule)
    : Apart start ledgers fewer where
  distinct := apart.distinct
  named move member := apart.named move (among move member)
  unbound move member other inside :=
    apart.unbound move (among move member) other (among other inside)
  untraced move member := apart.untraced move (among move member)
  leads move member := apart.leads move (among move member)

theorem ledgers_ne (apart : Apart start ledgers schedule) {one other : Party}
    (different : one ≠ other)
    : ledgers one ≠ ledgers other := by
  cases one <;> cases other
  · exact absurd rfl different
  · exact apart.distinct
  · exact apart.distinct.symm
  · exact absurd rfl different

/-- The handles that a party reads. -/
def readBy (schedule : List Move) (party : Party) (handle : Handle) : Prop :=
  ∃ move ∈ schedule, move.party = party ∧ handle ∈ move.command.reads

/-- Either party of the two is shown, and leaves in its ledger, what it would alone. -/
theorem run_alone (apart : Apart start ledgers schedule) (party : Party)
    : start.shownTo party schedule = (start.replies (commandsOf party schedule)).map Reply.shown
      ∧ (start.finish (schedule.map Move.command)).ledger (ledgers party)
        = (start.finish (commandsOf party schedule)).ledger (ledgers party) := by
  have agree : AgreeOn (ledgers party) (readBy schedule party) start start := by
    refine .refl ?_
    rintro handle ⟨move, member, rfl, read⟩
    exact apart.leads move member handle read
  have own : ∀ move ∈ schedule, move.party = party
      → move.command.KeepsTo (ledgers party) (readBy schedule party) := by
    rintro move member rfl
    exact ⟨apart.named move member, fun handle read => ⟨move, member, rfl, read⟩⟩
  have foreign : ∀ move ∈ schedule, move.party ≠ party
      → move.command.KeepsOff (ledgers party) (readBy schedule party) := by
    intro move member different
    refine ⟨?_, ?_, apart.untraced move member⟩
    · intro named
      exact apart.ledgers_ne different (apart.named move member _ named).symm
    · rintro handle bound ⟨other, inside, rfl, read⟩
      exact apart.unbound move member other inside different handle bound read
  obtain ⟨shown, agreed⟩ := agree.run own foreign
  exact ⟨shown, agreed.held⟩

/-- A ledger of neither party is left as it was. -/
theorem ledger_of_neither (apart : Apart start ledgers schedule) {name : String}
    (neither : ∀ party, name ≠ ledgers party)
    : (start.finish (schedule.map Move.command)).ledger name = start.ledger name := by
  refine start.ledger_finish_of_unnamed ?_
  intro command member named
  obtain ⟨move, inside, rfl⟩ := List.mem_map.mp member
  exact neither move.party (apart.named move inside name named)

/-- Two schedules in which each party has the same commands show each party the same and fill every
ledger alike.
-/
theorem alike (apart : Apart start ledgers schedule) {another : List Move}
    (anotherApart : Apart start ledgers another)
    (same : ∀ party, commandsOf party another = commandsOf party schedule)
    : (∀ party, start.shownTo party another = start.shownTo party schedule)
      ∧ ∀ name, (start.finish (another.map Move.command)).ledger name
          = (start.finish (schedule.map Move.command)).ledger name := by
  constructor
  · intro party
    rw [(anotherApart.run_alone party).1, (apart.run_alone party).1, same]
  · intro name
    by_cases owned : ∃ party, name = ledgers party
    · obtain ⟨party, rfl⟩ := owned
      rw [(anotherApart.run_alone party).2, (apart.run_alone party).2, same]
    · have neither : ∀ party, name ≠ ledgers party := fun party is => owned ⟨party, is⟩
      rw [anotherApart.ledger_of_neither neither, apart.ledger_of_neither neither]

end Apart

/-- Parties apart do not interfere. Whichever of them goes first, over any schedule the first is
shown the values, the failures and the journal lines that it is shown when all its commands are
run first, the second those that it is shown when all its commands are run behind them, and every
ledger comes to hold what it holds after the two runs.
-/
theorem parties_independent {start : Session} {ledgers : Party → String} {schedule : List Move}
    (apart : Apart start ledgers schedule) {one other : Party} (different : one ≠ other)
    : let mine := commandsOf one schedule
      let theirs := commandsOf other schedule
      start.shownTo one schedule = (start.replies mine).map Reply.shown
      ∧ start.shownTo other schedule = ((start.finish mine).replies theirs).map Reply.shown
      ∧ ∀ name,
          (start.finish (schedule.map Move.command)).ledger name
            = (start.finish (mine ++ theirs)).ledger name := by
  intro mine theirs
  have turnsApart : Apart start ledgers (inTurn one other schedule) :=
    apart.mono fun _ member => mem_of_mem_inTurn member
  obtain ⟨shown, held⟩ := apart.alike turnsApart (commandsOf_inTurn different schedule)
  obtain ⟨first, second⟩ := start.shownTo_inTurn different schedule
  refine ⟨?_, ?_, ?_⟩
  · rw [← shown, first]
  · rw [← shown, second]
  · intro name
    rw [← held, map_command_inTurn]

/-- Both parties bind the one name that neither reads, one command fails, and a cursor of the left
party is advanced between additions of the right one.
-/
theorem parties_independent_shared_name
    : let report : Report := ⟨.command, ⟨"cmd-cc", []⟩, .unknown, none, []⟩
      let start : Session := { reports := ⟨[("r", report)]⟩ }
      let ledgers : Party → String := fun party => if party = .left then "a" else "b"
      let schedule : List Move := [
        ⟨.left, .openCursor "c" "a" true⟩, ⟨.right, .add "b" "r"⟩, ⟨.left, .add "a" "r"⟩,
        ⟨.right, .within (some "x") "r" (.fromPlace .unknown)⟩, ⟨.left, .next "c"⟩,
        ⟨.right, .find "b" .nan (some "y")⟩,
        ⟨.left, .within (some "x") "r" (.fromPlace report.site)⟩, ⟨.right, .add "b" "r"⟩]
      Apart start ledgers schedule
      ∧ start.shownTo .left schedule
        = ((start.finish (commandsOf .right schedule)).replies
            (commandsOf .left schedule)).map Reply.shown
      ∧ (start.finish (schedule.map Move.command)).ledger "b" = ⟨[report, report]⟩ := by
  intro report start ledgers schedule
  have apart : Apart start ledgers schedule := by
    refine ⟨by decide, ?_, ?_, ?_, ?_⟩
    · simp [schedule, ledgers, Command.ledger?]
    · simp [schedule, Command.binds?, Command.reads]
    · simp [schedule]
    · simp [schedule, start, Command.reads, Leads, Bindings.get?]
  have different : Party.right ≠ Party.left := by decide
  obtain ⟨_, shown, held⟩ := parties_independent apart different
  refine ⟨apart, shown, ?_⟩
  rw [held]
  rfl

end Session

end CompilerReports
