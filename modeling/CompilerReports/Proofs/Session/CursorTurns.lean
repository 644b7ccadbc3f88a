import CompilerReports.Proofs.Session.History

/-! The turns of cursors over ledgers that grow. A cursor's answers depend on nothing but what its
ledger holds at each of its turns; so whatever else happens in between, turn after turn yields
the next report until the ledger is exhausted, and from then on nothing.
-/

namespace CompilerReports

-----------------------------------------------------------------------------------------
-- A cursor and the contents that it meets
-----------------------------------------------------------------------------------------

/-- The answer without the id that a numbered cursor gives beside its report. -/
def Answer.withoutId : Answer → Answer
  | .yielded _ shown => .yielded none shown
  | other => other

namespace Cursor

/-- What a cursor answers at a turn. -/
def answer (cursor : Cursor) (ledger : Ledger) : Answer :=
  match cursor.peek ledger with
  | some (id, report) => .yielded (if cursor.numbered then some id else none) report
  | none => .finished

/-- What a cursor answers turn after turn, from the contents that it meets. -/
def answers (cursor : Cursor) : List Ledger → List Answer
  | [] => []
  | held :: rest => cursor.answer held :: (cursor.advance held).answers rest

theorem advance_ledger (cursor : Cursor) (held : Ledger)
    : (cursor.advance held).ledger = cursor.ledger := by
  unfold advance
  split <;> rfl

/-- An unfinished cursor within its ledger has one of two turns: it yields the report at its
position and moves past it, or its position is the ledger's size and it finishes.
-/
theorem turn_cases {cursor : Cursor} {held : Ledger} (unfinished : cursor.finished = false)
    (within : cursor.position ≤ held.size)
    : (∃ report,
        held.get? (cursor.position + 1) = some report
        ∧ cursor.position < held.size
        ∧ cursor.answer held
          = .yielded (if cursor.numbered then some (cursor.position + 1) else none) report
        ∧ cursor.advance held = { cursor with position := cursor.position + 1 })
      ∨ held.size = cursor.position
        ∧ cursor.answer held = .finished
        ∧ cursor.advance held = { cursor with finished := true } := by
  cases shown : held.reports[cursor.position]? with
  | some report =>
      have inside : cursor.position < held.size := (List.getElem?_eq_some_iff.mp shown).1
      have seen : cursor.peek held = some (cursor.position + 1, report) := by
        simp only [peek, unfinished, Bool.false_eq_true, ↓reduceIte, shown, Option.map_some]
      refine Or.inl ⟨report, shown, inside, ?_, ?_⟩
      · simp only [answer, seen]
      · simp only [advance, seen]
  | none =>
      have outside : held.size ≤ cursor.position := List.getElem?_eq_none_iff.mp shown
      have seen : cursor.peek held = none := by
        simp only [peek, shown, Option.map_none, ite_self]
      refine Or.inr ⟨Nat.le_antisymm outside within, ?_, ?_⟩
      · simp only [answer, seen]
      · simp only [advance, seen]

/-- A finished cursor answers the same whatever it meets, by induction on the contents. -/
theorem answers_of_finished {cursor : Cursor} (finished : cursor.finished = true)
    (helds : List Ledger)
    : cursor.answers helds = helds.map fun _ => .finished := by
  induction helds with
  | nil => rfl
  | cons held rest ih =>
      have same : cursor.advance held = cursor := by
        simp only [advance, peek_of_finished finished, ← finished]
      simp only [answers, answer, peek_of_finished finished, same, ih, List.map_cons]

/-- The contents that a cursor meets in order: each holds what the one before it held, in its
place, and none is shorter than the cursor's position.
-/
structure Met (cursor : Cursor) (helds : List Ledger) : Prop where
  growing : helds.Pairwise fun earlier later => earlier.reports <+: later.reports
  within : ∀ held ∈ helds, cursor.position ≤ held.size

/-- (cursor.RightAt index held answer) holds of the answer that the cursor owes at the turn of the
given index, counted from zero, if it has not finished before.
-/
structure RightAt (cursor : Cursor) (index : Nat) (held : Ledger) (answer : Answer) : Prop where
  finishing : answer = .finished ↔ held.size = cursor.position + index
  yielding
    : answer ≠ .finished
      → ∃ report,
          held.get? (cursor.position + index + 1) = some report
          ∧ answer
            = .yielded (if cursor.numbered then some (cursor.position + index + 1) else none)
                report

/-- An unfinished cursor owes at its first turn what it answers there. -/
theorem rightAt_zero {cursor : Cursor} {held : Ledger} (unfinished : cursor.finished = false)
    (within : cursor.position ≤ held.size)
    : cursor.RightAt 0 held (cursor.answer held) := by
  rcases turn_cases unfinished within with
    ⟨report, shown, inside, answered, _⟩ | ⟨size, answered, _⟩
  · refine ⟨?_, fun _ => ⟨report, shown, answered⟩⟩
    rw [answered]
    constructor
    · intro same
      cases same
    · intro exhausted
      exact absurd exhausted (Nat.ne_of_gt inside)
  · exact ⟨⟨fun _ => size, fun _ => answered⟩, fun other => absurd answered other⟩

/-- What a cursor owes after a first report is what it owed one turn later before. -/
theorem RightAt.before {cursor : Cursor} {index : Nat} {held : Ledger} {answer : Answer}
    (right : { cursor with position := cursor.position + 1 }.RightAt index held answer)
    : cursor.RightAt (index + 1) held answer := by
  have turn : cursor.position + 1 + index = cursor.position + (index + 1) := by omega
  obtain ⟨finishing, yielding⟩ := right
  simp only [turn] at finishing yielding
  exact ⟨finishing, yielding⟩

/-- Behind a report that was yielded, the contents that follow hold the next position too. -/
theorem Met.tail {cursor : Cursor} {first : Ledger} {rest : List Ledger}
    (met : cursor.Met (first :: rest)) (inside : cursor.position < first.size)
    : { cursor with position := cursor.position + 1 }.Met rest := by
  obtain ⟨later, growing⟩ := List.pairwise_cons.mp met.growing
  refine ⟨growing, ?_⟩
  intro held member
  have grown : first.size ≤ held.size := (later held member).length_le
  exact Nat.lt_of_lt_of_le inside grown

/-- Turn after turn a cursor answers what it owes until it has finished, and then it stays
finished. Witness: induction on the contents that it meets; a report yielded at the first turn
moves the position on by one, which is what makes the rest of the turns one turn later.
-/
theorem answers_right {cursor : Cursor} {helds : List Ledger} (met : cursor.Met helds)
    (unfinished : cursor.finished = false) {index : Nat} {held : Ledger} {answer : Answer}
    (content : helds[index]? = some held) (answered : (cursor.answers helds)[index]? = some answer)
    : (.finished ∈ (cursor.answers helds).take index → answer = .finished)
      ∧ (.finished ∉ (cursor.answers helds).take index
        → cursor.RightAt index held answer) := by
  induction helds generalizing cursor index with
  | nil => cases content
  | cons first rest ih =>
      have within := met.within first (List.mem_cons_self ..)
      cases index with
      | zero =>
          obtain rfl : first = held := Option.some.inj content
          obtain rfl : cursor.answer first = answer := Option.some.inj answered
          exact ⟨fun member => absurd member List.not_mem_nil,
            fun _ => rightAt_zero unfinished within⟩
      | succ index =>
          simp only [answers, List.getElem?_cons_succ, List.take_succ_cons, List.mem_cons]
            at content answered ⊢
          rcases turn_cases unfinished within with
            ⟨report, _, inside, yielded, moved⟩ | ⟨_, finished, moved⟩
          · rw [moved] at answered ⊢
            obtain ⟨sticky, right⟩ := ih (met.tail inside) unfinished content answered
            have other : Answer.finished ≠ cursor.answer first := by
              rw [yielded]
              exact fun same => by cases same
            constructor
            · intro either
              rcases either with same | earlier
              · exact absurd same other
              · exact sticky earlier
            · intro absent
              exact (right fun member => absent (Or.inr member)).before
          · rw [moved, answers_of_finished rfl, List.getElem?_map, content] at answered
            refine ⟨fun _ => (Option.some.inj answered).symm, fun absent => ?_⟩
            exact absurd (Or.inl finished.symm) absent

/-- Two cursors in the same place answer alike on the same contents, but for the ids that only
numbered cursors give, by induction on the contents.
-/
theorem answers_alike (plain numbered : Cursor) (position : plain.position = numbered.position)
    (finished : plain.finished = numbered.finished) (helds : List Ledger)
    : (plain.answers helds).map Answer.withoutId
      = (numbered.answers helds).map Answer.withoutId := by
  induction helds generalizing plain numbered with
  | nil => rfl
  | cons held rest ih =>
      have seen : plain.peek held = numbered.peek held := by
        simp only [peek, position, finished]
      have moved : (plain.advance held).position = (numbered.advance held).position
          ∧ (plain.advance held).finished = (numbered.advance held).finished := by
        unfold advance
        rw [seen]
        cases numbered.peek held with
        | some entry => exact ⟨congrArg (· + 1) position, finished⟩
        | none => exact ⟨position, rfl⟩
      have alike : (plain.answer held).withoutId = (numbered.answer held).withoutId := by
        unfold answer
        rw [seen]
        cases numbered.peek held <;> rfl
      simp only [answers, List.map_cons, alike, ih _ _ moved.1 moved.2]

end Cursor

-----------------------------------------------------------------------------------------
-- A bound cursor over a run
-----------------------------------------------------------------------------------------

namespace Command

/-- The name of the cursor that a command opens. -/
def opens? : Command → Option String
  | .openCursor name _ _ => some name
  | _ => none

/-- The name of the cursor whose turn a command takes. -/
def turnOf? : Command → Option String
  | .next name => some name
  | _ => none

theorem eq_next_of_turnOf? {command : Command} {name : String}
    (turn : command.turnOf? = some name)
    : command = .next name := by
  cases command with
  | next other =>
      cases turn
      rfl
  | _ => cases turn

end Command

namespace Session

/-- The turns of a named cursor over a run: what the given ledger holds at each of them, and what
comes of the turn.
-/
def turns (session : Session) (name ledger : String)
    : List Command → List (Ledger × Except Failure Answer)
  | [] => []
  | command :: rest =>
      let later := (session.step command).1.turns name ledger rest
      if command.turnOf? = some name then
        (session.ledger ledger, (session.step command).2.outcome) :: later
      else
        later

/-- A turn moves its own cursor and leaves the rest of the session as it was. -/
theorem step_next {session : Session} {name : String} {cursor : Cursor}
    (bound : session.cursors.get? name = some cursor)
    : let held := session.ledger cursor.ledger
      (session.step (.next name)).1
        = { session with cursors := session.cursors.set name (cursor.advance held) }
      ∧ (session.step (.next name)).2.outcome = .ok (cursor.answer held) := by
  simp only [step, judge, Verdict.withBound, bound]
  exact ⟨rfl, rfl⟩

/-- A turn of a name that is bound to no cursor changes nothing. -/
theorem step_next_unbound {session : Session} {name : String}
    (unbound : session.cursors.get? name = none)
    : (session.step (.next name)).1 = session := by
  simp only [step, judge, Verdict.withBound, unbound]
  rfl

/-- A cursor is moved by its own turns only, and bound anew only where its name is opened. -/
theorem step_cursor_of_ne {session : Session} {command : Command} {name : String}
    (kept : command.opens? ≠ some name) (other : command.turnOf? ≠ some name)
    : (session.step command).1.cursors.get? name = session.cursors.get? name := by
  have leaves := judge_leaves session command
  simp only [step, after]
  rw [extend_eq]
  generalize session.judge command = verdict at leaves ⊢
  obtain ⟨added, change, outcome⟩ := verdict
  cases leaves with
  | @opened bound ledger numbered =>
      have unequal : name ≠ bound := fun same => kept (congrArg some same.symm)
      exact Bindings.get?_set_of_ne _ unequal _
  | @advanced bound cursor found =>
      have unequal : name ≠ bound := fun same => other (congrArg some same.symm)
      exact Bindings.get?_set_of_ne _ unequal _
  | _ => rfl

/-- Over a run a bound cursor answers what its own turns owe it, whatever happens in between.
Witness: induction on the commands; no other command moves the cursor.
-/
theorem turns_eq_answers {session : Session} {name : String} {cursor : Cursor}
    (bound : session.cursors.get? name = some cursor) {commands : List Command}
    (kept : ∀ command ∈ commands, command.opens? ≠ some name)
    : let turns := session.turns name cursor.ledger commands
      turns.map Prod.snd = (cursor.answers (turns.map Prod.fst)).map .ok := by
  induction commands generalizing session cursor with
  | nil => rfl
  | cons command rest ih =>
      have keptLater : ∀ later ∈ rest, later.opens? ≠ some name :=
        fun later member => kept later (List.mem_cons_of_mem _ member)
      by_cases turn : command.turnOf? = some name
      · obtain rfl := Command.eq_next_of_turnOf? turn
        obtain ⟨moved, answered⟩ := step_next bound
        have next : (session.step (.next name)).1.cursors.get? name
            = some (cursor.advance (session.ledger cursor.ledger)) := by
          rw [moved]
          exact Bindings.get?_set_self ..
        have later := ih next keptLater
        rw [Cursor.advance_ledger] at later
        simp only [turns, turn, ↓reduceIte, List.map_cons, Cursor.answers, answered, later]
      · have next : (session.step command).1.cursors.get? name = some cursor :=
          (step_cursor_of_ne (kept command (List.mem_cons_self ..)) turn).trans bound
        simp only [turns, turn, ↓reduceIte]
        exact ih next keptLater

/-- What a ledger holds only grows from turn to turn, by induction on the commands. -/
theorem turns_growing (session : Session) (name ledger : String) (commands : List Command)
    : let helds := (session.turns name ledger commands).map Prod.fst
      (helds.Pairwise fun earlier later => earlier.reports <+: later.reports)
      ∧ ∀ held ∈ helds, (session.ledger ledger).reports <+: held.reports := by
  induction commands generalizing session with
  | nil => exact ⟨.nil, fun _ member => absurd member List.not_mem_nil⟩
  | cons command rest ih =>
      obtain ⟨growing, above⟩ := ih (session.step command).1
      have here := session.ledger_prefix_step command ledger
      have aboveHere : ∀ held ∈ ((session.step command).1.turns name ledger rest).map Prod.fst,
          (session.ledger ledger).reports <+: held.reports :=
        fun held member => here.trans (above held member)
      by_cases turn : command.turnOf? = some name
      · simp only [turns, turn, ↓reduceIte, List.map_cons]
        refine ⟨List.pairwise_cons.mpr ⟨aboveHere, growing⟩, ?_⟩
        intro held member
        rcases List.mem_cons.mp member with same | later
        · exact same ▸ List.prefix_rfl
        · exact aboveHere held later
      · simp only [turns, turn, ↓reduceIte]
        exact ⟨growing, aboveHere⟩

/-- Opening a cursor binds it unfinished, at the start of its ledger. -/
theorem step_openCursor (session : Session) (name ledger : String) (numbered : Bool)
    : (session.step (.openCursor name ledger numbered)).1.cursors.get? name
      = some { ledger, numbered } := by
  exact Bindings.get?_set_self ..

/-- A cursor that was just opened meets contents that grow from turn to turn. -/
theorem met_turns (session : Session) (name : String) (cursor : Cursor)
    (start : cursor.position = 0) (commands : List Command)
    : cursor.Met ((session.turns name cursor.ledger commands).map Prod.fst) := by
  refine ⟨(session.turns_growing name cursor.ledger commands).1, ?_⟩
  intro held _
  rw [start]
  exact Nat.zero_le _

/-- A cursor has finished before a turn when one of its earlier answers says so. -/
theorem finished_before_iff {turns : List (Ledger × Except Failure Answer)}
    {answers : List Answer} (outcomes : turns.map Prod.snd = answers.map .ok) (index : Nat)
    : (∃ earlier ∈ turns.take index, earlier.2 = .ok .finished)
      ↔ .finished ∈ answers.take index := by
  have same : (turns.take index).map Prod.snd = (answers.take index).map .ok := by
    rw [List.map_take, outcomes, List.map_take]
  constructor
  · intro done
    obtain ⟨earlier, member, finished⟩ := done
    have listed : earlier.2 ∈ (turns.take index).map Prod.snd := List.mem_map_of_mem member
    rw [same, finished] at listed
    obtain ⟨answer, earlierAnswer, equal⟩ := List.mem_map.mp listed
    exact Except.ok.inj equal ▸ earlierAnswer
  · intro member
    have listed : .ok .finished ∈ (answers.take index).map (Except.ok (ε := Failure)) :=
      List.mem_map_of_mem member
    rw [← same] at listed
    exact List.mem_map.mp listed

/-- The outcome of a turn of a cursor that was just opened is the answer that it owes. -/
theorem turns_right {session : Session} {name ledger : String} {numbered : Bool}
    (bound : session.cursors.get? name = some { ledger, numbered }) {commands : List Command}
    (kept : ∀ command ∈ commands, command.opens? ≠ some name) {index : Nat} {held : Ledger}
    {outcome : Except Failure Answer}
    (shown : (session.turns name ledger commands)[index]? = some (held, outcome))
    : ∃ answer,
        outcome = .ok answer
        ∧ ((∃ earlier ∈ (session.turns name ledger commands).take index,
              earlier.2 = .ok .finished)
            → answer = .finished)
        ∧ ((∀ earlier ∈ (session.turns name ledger commands).take index,
              earlier.2 ≠ .ok .finished)
            → ({ ledger, numbered } : Cursor).RightAt index held answer) := by
  have outcomes := turns_eq_answers bound kept
  have met := session.met_turns name { ledger, numbered } rfl commands
  simp only at outcomes met
  have content : ((session.turns name ledger commands).map Prod.fst)[index]? = some held := by
    rw [List.getElem?_map, shown]
    rfl
  have answered := congrArg (fun listed => listed[index]?) outcomes
  simp only [List.getElem?_map, shown, Option.map_some] at answered
  obtain ⟨answer, given, same⟩ := Option.map_eq_some_iff.mp answered.symm
  obtain ⟨sticky, right⟩ := Cursor.answers_right met rfl content given
  rw [← finished_before_iff outcomes] at sticky right
  refine ⟨answer, same.symm, sticky, fun open? => right ?_⟩
  intro done
  obtain ⟨earlier, member, finished⟩ := done
  exact open? earlier member finished

/-- A turn changes nothing but its own cursor. -/
theorem step_next_frame (session : Session) (name : String)
    : let next := (session.step (.next name)).1
      next = { session with cursors := next.cursors }
      ∧ ∀ other, other ≠ name → next.cursors.get? other = session.cursors.get? other := by
  cases found : session.cursors.get? name with
  | none =>
      rw [step_next_unbound found]
      exact ⟨rfl, fun _ _ => rfl⟩
  | some cursor =>
      rw [(step_next found).1]
      exact ⟨rfl, fun other different => Bindings.get?_set_of_ne _ different _⟩

/-- Turns whose outcomes are answers show the answers' reports. -/
theorem map_withoutId {turns : List (Ledger × Except Failure Answer)} {answers : List Answer}
    (outcomes : turns.map Prod.snd = answers.map .ok)
    : turns.map (fun turn => turn.2.map Answer.withoutId)
      = (answers.map Answer.withoutId).map .ok := by
  calc turns.map (fun turn => turn.2.map Answer.withoutId)
      = (turns.map Prod.snd).map (Except.map Answer.withoutId) := by
        rw [List.map_map]
        rfl
    _ = (answers.map .ok).map (Except.map Answer.withoutId) := by rw [outcomes]
    _ = (answers.map Answer.withoutId).map .ok := by
      simp only [List.map_map]
      rfl

/-- Two cursors that were just opened and meet the same contents yield the same reports. -/
theorem turns_alike {left right : Session} {name twin ledger shown : String}
    {numbered marked : Bool} (bound : left.cursors.get? name = some { ledger, numbered })
    (twinBound : right.cursors.get? twin = some { ledger := shown, numbered := marked })
    {commands others : List Command} (kept : ∀ command ∈ commands, command.opens? ≠ some name)
    (twinKept : ∀ command ∈ others, command.opens? ≠ some twin)
    (same
      : (left.turns name ledger commands).map Prod.fst
        = (right.turns twin shown others).map Prod.fst)
    : (left.turns name ledger commands).map (fun turn => turn.2.map Answer.withoutId)
      = (right.turns twin shown others).map (fun turn => turn.2.map Answer.withoutId) := by
  have outcomes := turns_eq_answers bound kept
  have twinOutcomes := turns_eq_answers twinBound twinKept
  simp only at outcomes twinOutcomes
  have alike := Cursor.answers_alike { ledger, numbered } { ledger := shown, numbered := marked }
    rfl rfl ((left.turns name ledger commands).map Prod.fst)
  rw [map_withoutId outcomes, map_withoutId twinOutcomes, alike, same]

/-- Cursors over growing ledgers lose nothing and repeat nothing. Between the opening of a cursor
and the end of a run that does not open its name again, whatever other commands come between
its turns: until it has finished, the turn of an index yields the report at that index of what
the ledger then holds, numbered cursors with its id, and finishes exactly when the ledger holds
no more than the reports before; once finished it finishes at every turn. A turn changes
neither a ledger nor another cursor, nor anything else. And any two cursors that meet the same
contents turn after turn, numbered or not, yield the same reports.
-/
theorem cursor_turns_complete {name : String} {commands : List Command}
    (kept : ∀ command ∈ commands, command.opens? ≠ some name)
    (start : Session) (ledger : String) (numbered : Bool)
    : let turns := (start.step (.openCursor name ledger numbered)).1.turns name ledger commands
      (∀ index held outcome,
        turns[index]? = some (held, outcome)
        → ((∃ earlier ∈ turns.take index, earlier.2 = .ok .finished)
            → outcome = .ok .finished)
          ∧ ((∀ earlier ∈ turns.take index, earlier.2 ≠ .ok .finished)
            → (outcome = .ok .finished ↔ held.size = index)
              ∧ (outcome ≠ .ok .finished
                → ∃ report,
                    held.get? (index + 1) = some report
                    ∧ outcome
                      = .ok
                          (.yielded (if numbered then some (index + 1) else none) report))))
      ∧ (∀ session : Session,
          let next := (session.step (.next name)).1
          next = { session with cursors := next.cursors }
          ∧ ∀ other, other ≠ name → next.cursors.get? other = session.cursors.get? other)
      ∧ ∀ (another : Session) (twin shown : String) (marked : Bool) (others : List Command),
          (∀ command ∈ others, command.opens? ≠ some twin)
          → let paired := (another.step (.openCursor twin shown marked)).1.turns twin shown others
            turns.map Prod.fst = paired.map Prod.fst
            → turns.map (fun turn => turn.2.map Answer.withoutId)
              = paired.map (fun turn => turn.2.map Answer.withoutId) := by
  intro turns
  have bound := start.step_openCursor name ledger numbered
  refine ⟨?_, fun session => session.step_next_frame name, ?_⟩
  · intro index held outcome shown
    obtain ⟨answer, rfl, sticky, right⟩ := turns_right bound kept shown
    refine ⟨fun before => congrArg Except.ok (sticky before), fun running => ?_⟩
    obtain ⟨finishing, yielding⟩ := right running
    simp only [Nat.zero_add] at finishing yielding
    refine ⟨?_, ?_⟩
    · exact ⟨fun same => finishing.mp (Except.ok.inj same),
        fun size => congrArg Except.ok (finishing.mpr size)⟩
    · intro other
      obtain ⟨report, found, yielded⟩ := yielding fun same => other (congrArg Except.ok same)
      exact ⟨report, found, congrArg Except.ok yielded⟩
  · intro another twin shown marked others twinKept paired same
    exact turns_alike bound (another.step_openCursor twin shown marked) kept twinKept same

/-- A report that is added after a cursor has finished is not yielded: the cursor finishes at its
second turn, where its ledger holds one report, and at its third, where the ledger holds two.
-/
theorem cursor_turns_complete_late_report
    : let report : Report := ⟨.command, ⟨"cmd-cc", []⟩, .unknown, none, []⟩
      let start : Session := { reports := ⟨[("r", report)]⟩ }
      let commands : List Command :=
        [.add "main" "r", .next "c", .next "c", .add "main" "r", .next "c"]
      let turns := (start.step (.openCursor "c" "main" true)).1.turns "c" "main" commands
      (∀ command ∈ commands, command.opens? ≠ some "c")
      ∧ (∃ outcome,
          turns[0]? = some (⟨[report]⟩, outcome) ∧ outcome = .ok (.yielded (some 1) report))
      ∧ (∃ outcome, turns[1]? = some (⟨[report]⟩, outcome) ∧ outcome = .ok .finished)
      ∧ ∃ outcome, turns[2]? = some (⟨[report, report]⟩, outcome) ∧ outcome = .ok .finished := by
  intro report start commands turns
  have kept : ∀ command ∈ commands, command.opens? ≠ some "c" := by
    simp [commands, Command.opens?]
  have right := (cursor_turns_complete kept start "main" true).1
  have first : turns.take 1 = [(⟨[report]⟩, .ok (.yielded (some 1) report))] := rfl
  have second : turns.take 2
      = [(⟨[report]⟩, .ok (.yielded (some 1) report)), (⟨[report]⟩, .ok .finished)] := rfl
  have open? : ∀ earlier ∈ turns.take 1, earlier.2 ≠ .ok .finished := by
    simp [first]
  refine ⟨kept, ⟨_, rfl, ?_⟩, ⟨_, rfl, ?_⟩, ⟨_, rfl, ?_⟩⟩
  · obtain ⟨_, yielding⟩ := (right 0 _ _ rfl).2 fun _ member => absurd member List.not_mem_nil
    obtain ⟨shown, found, yielded⟩ := yielding fun same => by cases same
    cases found
    exact yielded
  · exact ((right 1 _ _ rfl).2 open?).1.mpr rfl
  · exact (right 2 _ _ rfl).1 ⟨_, by rw [second]; exact List.mem_cons_of_mem _ (List.mem_cons_self ..), rfl⟩

end Session

end CompilerReports
