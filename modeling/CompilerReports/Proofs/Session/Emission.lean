import CompilerReports.Proofs.Session.History

/-! Emitting is minting and adding in one command, and giving up is emitting and failing. What a
draft comes to decides all of them alike: a report is added under the next id and journalled as
any added report is, and a refusal is passed on and leaves every ledger as it was. Drafts that are
emitted one after the other come to the same as drafts that are minted together.
-/

namespace CompilerReports.Session

-----------------------------------------------------------------------------------------
-- Commands that come to the same
-----------------------------------------------------------------------------------------

/-- A draft that mints is judged to be added, under the next id. -/
theorem judge_emit_of_minted {draft : Draft} {report : Report} (minted : draft.mint = .ok report)
    (session : Session) (carrier : Carrier)
    : session.judge (.emit carrier draft)
      = { added := [report], outcome := .ok (.id (session.nextId carrier.ledger)) } := by
  simp only [judge, Verdict.ofResult, minted]

/-- A draft that mints is bound under the name that is given for it, and nothing else happens. -/
theorem step_mint_of_minted (session : Session) {draft : Draft} {report : Report}
    (minted : draft.mint = .ok report) (name : String)
    : let bound := session.apply (.report name report)
      session.step (.mint (some name) draft)
        = (bound, { outcome := .ok (.report report), sizes := bound.sizes, trace := [] }) := by
  simp only [step, after, judge, Verdict.ofResult, minted]
  exact congrArg (fun trace => (_, Reply.mk _ _ trace)) (ite_self _)

/-- A command that is refused writes the refusal's fault, if it is one, and changes no ledger. -/
theorem step_of_refused {session : Session} {command : Command} {refusal : Refusal}
    (refused : session.judge command = Verdict.refuse refusal)
    : (session.step command).2.outcome = .error (.refused refusal)
      ∧ (session.step command).2.trace
        = (if session.tracing then (refusal.fault?.map Event.ofFault).toList.map Event.line else [])
      ∧ ∀ name, (session.step command).1.ledger name = session.ledger name := by
  refine ⟨?_, ?_, ?_⟩
  · rw [step_outcome, refused]
    rfl
  · simp only [step, refused]
    rfl
  · intro name
    by_cases named : command.ledger? = some name
    · rw [step_ledger_self named, refused]
      exact congrArg Ledger.mk (List.append_nil _)
    · exact step_ledger_of_ne named

/-- A draft that is refused is refused alike by the commands that mint it, emit it and give up on
it.
-/
theorem judge_of_refused {draft : Draft} {refusal : Refusal} (refused : draft.mint = .error refusal)
    (session : Session) (name : Option String) (carrier : Carrier)
    : session.judge (.mint name draft) = Verdict.refuse refusal
      ∧ session.judge (.emit carrier draft) = Verdict.refuse refusal
      ∧ session.judge (.abort carrier draft) = Verdict.refuse refusal := by
  simp only [judge, Verdict.ofResult, refused, and_self]

/-- Drafts that all mint are emitted under the ids that follow the size of the ledger, by induction
on them.
-/
theorem finish_emits {drafts : List Draft} {reports : List Report}
    (minted : drafts.mapM Draft.mint = .ok reports) (session : Session) (carrier : Carrier)
    : let emits := drafts.map (Command.emit carrier)
      (session.finish emits).ledger carrier.ledger
          = (session.ledger carrier.ledger).append reports
        ∧ (session.replies emits).map Reply.outcome
          = (List.range' (session.nextId carrier.ledger) reports.length).map fun id =>
              .ok (.id id) := by
  induction drafts generalizing session reports with
  | nil =>
      obtain rfl : [] = reports := Except.ok.inj minted
      exact ⟨congrArg Ledger.mk (List.append_nil _).symm, rfl⟩
  | cons draft rest ih =>
      obtain ⟨report, others, first, later, rfl⟩ := eq_cons_of_mapM_mint minted
      have judged := judge_emit_of_minted first session carrier
      have added : (session.step (.emit carrier draft)).1.ledger carrier.ledger
          = (session.ledger carrier.ledger).append [report] := by
        rw [step_ledger_self rfl, judged]
      have next : (session.step (.emit carrier draft)).1.nextId carrier.ledger
          = session.nextId carrier.ledger + 1 := by
        rw [nextId, added, Ledger.size_append]
        rfl
      obtain ⟨ledger, outcomes⟩ := ih later (session.step (.emit carrier draft)).1
      refine ⟨?_, ?_⟩
      · rw [List.map_cons, finish_cons, ledger, added, Ledger.append_append]
        rfl
      · rw [List.map_cons, replies_cons, List.map_cons, outcomes, next, step_outcome, judged]
        rfl

/-- Drafts that are all refused for one reason leave every ledger as it was, by induction on them.
-/
theorem finish_emits_of_refused {drafts : List Draft} {refusal : Refusal}
    (refused : ∀ draft ∈ drafts, draft.mint = .error refusal) (session : Session)
    (carrier : Carrier)
    : let emits := drafts.map (Command.emit carrier)
      (∀ name, (session.finish emits).ledger name = session.ledger name)
        ∧ (session.replies emits).map Reply.outcome
          = List.replicate drafts.length (.error (.refused refusal)) := by
  induction drafts generalizing session with
  | nil => exact ⟨fun _ => rfl, rfl⟩
  | cons draft rest ih =>
      obtain ⟨here, later⟩ := List.forall_mem_cons.mp refused
      obtain ⟨fails, _, keeps⟩ :=
        step_of_refused (judge_of_refused here session none carrier).2.1
      obtain ⟨ledgers, outcomes⟩ := ih later (session.step (.emit carrier draft)).1
      refine ⟨?_, ?_⟩
      · intro name
        rw [List.map_cons, finish_cons, ledgers, keeps]
      · rw [List.map_cons, replies_cons, List.map_cons, outcomes, fails]
        rfl

end CompilerReports.Session
