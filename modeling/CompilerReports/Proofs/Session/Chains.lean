import CompilerReports.Override
import CompilerReports.Proofs.Report.Minting
import CompilerReports.Proofs.Session.Emission

/-! Instantiation chains, step by step or at once. A chain is stored as it is given, and a further
step goes in front of it; so a report that is minted with the inner part of a chain and is then put
within the outer steps, innermost first, is the report that is minted with the whole chain.
-/

namespace CompilerReports

-----------------------------------------------------------------------------------------
-- Chains of reports
-----------------------------------------------------------------------------------------

/-- Steps that are put in front one by one, the last one first, stand there in their order, by
induction on them.
-/
theorem Report.foldl_within (report : Report) (steps : List Instantiation)
    : steps.reverse.foldl within report
      = { report with context := steps ++ report.context } := by
  induction steps with
  | nil => rfl
  | cons step rest ih =>
      rw [List.reverse_cons, List.foldl_append, ih]
      rfl

/-- Minting stores the chain as it is given and looks at nothing in it. -/
theorem Draft.mint_of_prepended (draft : Draft) (steps : List Instantiation)
    : mint { draft with context := steps ++ draft.context }
      = draft.mint.map fun report => { report with context := steps ++ report.context } := by
  have sited : siteOrShown { draft with context := steps ++ draft.context } = draft.siteOrShown :=
    rfl
  unfold mint
  rw [sited]
  cases Category.accept draft.category draft.payload.kind with
  | error refusal => rfl
  | ok category => cases draft.siteOrShown <;> rfl

/-- A chain is read part by part, and nothing else of the draft depends on it. -/
theorem RawDraft.read?_of_split {raw : RawDraft} {outer inner : List Json} {whole : Draft}
    (read : { raw with context := outer ++ inner }.read? = some whole)
    : ∃ part steps,
        { raw with context := inner }.read? = some part
        ∧ outer.mapM Instantiation.ofJson? = some steps
        ∧ whole = { part with context := steps ++ part.context } := by
  simp only [read?, List.mapM_append, Option.bind_eq_bind, Option.pure_def,
    Option.bind_eq_some_iff, Option.some.injEq] at read
  obtain ⟨site, siteRead, location, locationRead, chain, chainRead, rfl⟩ := read
  obtain ⟨steps, outerRead, rest, innerRead, rfl⟩ := chainRead
  let part : Draft := {
    category := raw.category
    payload := raw.payload
    site
    location
    context := rest
    stack := raw.stack }
  refine ⟨part, steps, ?_, outerRead, rfl⟩
  simp only [read?, siteRead, locationRead, innerRead]
  rfl

namespace Session

-----------------------------------------------------------------------------------------
-- Chains of reports that are held
-----------------------------------------------------------------------------------------

/-- The command makes the given report: it answers with it, binds at most the one name to it, and
leaves every ledger as it was.
-/
structure Makes (session : Session) (target : Option String) (made : Report)
    (result : Session × Reply)
    : Prop where
  outcome : result.2.outcome = .ok (.report made)
  ledgers : result.1.ledgers = session.ledgers
  reports
    : result.1.reports
      = match target with
        | some name => session.reports.set name made
        | none => session.reports

/-- A command that puts a step in front of a bound report makes the report with that step. -/
theorem step_within {session : Session} {source : String} {report : Report}
    (bound : session.reports.get? source = some report) (target : Option String)
    (step : Instantiation)
    : session.Makes target (report.within step)
        (session.step (.within target source step)) := by
  have judged : session.judge (.within target source step)
      = Verdict.make target (report.within step) := by
    simp only [judge, Verdict.withBound, bound]
  cases target <;> exact {
    outcome := by rw [step_outcome, judged]; rfl
    ledgers := by simp only [Session.step, after, judged]; rfl
    reports := by simp only [Session.step, after, judged]; rfl }

/-- Steps that are put in front of a report under one name, one command after the other, are put in
front of it together, by induction on them.
-/
theorem finish_within {session : Session} {name : String} {report : Report}
    (bound : session.reports.get? name = some report) (steps : List Instantiation)
    : (session.finish (steps.map (.within (some name) name))).reports.get? name
      = some (steps.foldl Report.within report) := by
  induction steps generalizing session report with
  | nil => exact bound
  | cons step rest ih =>
      rw [List.map_cons, finish_cons, List.foldl_cons]
      refine ih ?_
      rw [(step_within bound (some name) step).reports, Bindings.get?_set_self]

/-- Putting steps in front one by one is minting with the whole chain. Where a draft mints whose
chain has an outer and an inner part, it also mints with the inner part alone; and that report,
put within the outer steps from the last to the first, is the report of the whole, by itself as
well as under a name in a session. A further step changes nothing of a report but its chain: not
what it says, not where it comes from, and not how it is judged; and the report that it was made
of is unchanged wherever it is bound or stored.
-/
theorem chain_step_by_step
    : (∀ (raw : RawDraft) (outer inner : List Json) (whole : Draft) (report : Report),
        { raw with context := outer ++ inner }.read? = some whole
        → whole.mint = .ok report
        → ∃ part steps inside,
            { raw with context := inner }.read? = some part
            ∧ outer.mapM Instantiation.ofJson? = some steps
            ∧ part.mint = .ok inside
            ∧ steps.reverse.foldl Report.within inside = report
            ∧ ∀ (session : Session) (name : String),
                (session.finish
                    (.mint (some name) part
                      :: steps.reverse.map (.within (some name) name))).reports.get? name
                  = some report)
      ∧ (∀ (report : Report) (step : Instantiation),
          (report.within step).context = step :: report.context
          ∧ report.within step = { report with context := (report.within step).context }
          ∧ (report.within step).kind = report.kind
          ∧ ∀ overrides, (report.within step).severity overrides = report.severity overrides)
      ∧ ∀ (session : Session) (source : String) (target : Option String) (report : Report)
          (step : Instantiation),
          session.reports.get? source = some report
          → let result := session.step (.within target source step)
            result.2.outcome = .ok (.report (report.within step))
            ∧ (∀ name, result.1.ledger name = session.ledger name)
            ∧ ∀ name,
                target ≠ some name → result.1.reports.get? name = session.reports.get? name := by
  refine ⟨?_, fun _ _ => ⟨rfl, rfl, rfl, fun _ => rfl⟩, ?_⟩
  · intro raw outer inner whole report read minted
    obtain ⟨part, steps, partRead, stepsRead, rfl⟩ := RawDraft.read?_of_split read
    rw [Draft.mint_of_prepended] at minted
    cases inside : part.mint with
    | error refusal =>
        rw [inside] at minted
        cases minted
    | ok held =>
        rw [inside] at minted
        obtain rfl := Except.ok.inj minted
        refine ⟨part, steps, held, partRead, stepsRead, inside, held.foldl_within steps, ?_⟩
        intro session name
        have bound : (session.step (.mint (some name) part)).1.reports.get? name = some held := by
          rw [step_mint_of_minted session inside name]
          exact session.reports.get?_set_self name held
        rw [finish_cons, finish_within bound, held.foldl_within]
  · intro session source target report step bound result
    have puts := step_within bound target step
    refine ⟨puts.outcome, ?_, ?_⟩
    · intro name
      rw [ledger, puts.ledgers]
      rfl
    · intro name other
      rw [puts.reports]
      cases target with
      | none => rfl
      | some bindsTo =>
          have different : name ≠ bindsTo := fun same => other (congrArg some same.symm)
          exact Bindings.get?_set_of_ne _ different _

/-- A chain of an instantiated symbol, a place under an unknown kind and a place with a further
field is split behind its second step; and a stored report keeps its chain when a step is put in
front of it.
-/
theorem chain_step_by_step_unusual_entries
    : let place : Json := .object [("file", .text "a.ts"), ("line", .number .nan),
        ("column", .number (.infinite true)), ("note", .null)]
      let symbol : Json := .object [("name", .text "T"), ("kind", .text "type"),
        ("location", .null)]
      let first : Json := .object [("kind", .text "instantiation-of"), ("location", place),
        ("entry", symbol)]
      let second : Json := .object [("kind", .text "elsewhere"), ("location", place)]
      let third : Json := .object [("kind", .text "instantiation-from"), ("location", place),
        ("depth", .null)]
      let raw : RawDraft := { category := "cmd", payload := ⟨"cmd-cc", []⟩ }
      let point : Point := ⟨"a.ts", .nan, .infinite true⟩
      let steps : List Instantiation :=
        [.ofSymbol point ⟨"T", "type", none⟩, .fromPlace point, .fromPlace point]
      let report : Report := ⟨.command, ⟨"cmd-cc", []⟩, .unknown, none, steps⟩
      (∃ whole,
        { raw with context := [first, second] ++ [third] }.read? = some whole
        ∧ whole.mint = .ok report)
      ∧ (∃ part outer inside,
          { raw with context := [third] }.read? = some part
          ∧ [first, second].mapM Instantiation.ofJson? = some outer
          ∧ part.mint = .ok inside
          ∧ outer.reverse.foldl Report.within inside = report)
      ∧ ∃ session : Session,
          session.reports.get? "r" = some report
          ∧ (session.ledger "main").reports = [report]
          ∧ ((session.step (.within none "r" (.fromPlace point))).1.ledger "main").reports
            = [report] := by
  intro place symbol first second third raw point steps report
  let whole : Draft := { category := "cmd", payload := ⟨"cmd-cc", []⟩, context := steps }
  have read : { raw with context := [first, second] ++ [third] }.read? = some whole := by rfl
  have minted : whole.mint = .ok report := by rfl
  let session : Session := finish {} [.mint (some "r") whole, .add "main" "r"]
  have bound : session.reports.get? "r" = some report := by rfl
  have stored : (session.ledger "main").reports = [report] := by rfl
  obtain ⟨split, _, within⟩ := chain_step_by_step
  obtain ⟨part, outer, inside, partRead, outerRead, inner, together, _⟩ :=
    split raw [first, second] [third] whole report read minted
  obtain ⟨_, kept, _⟩ := within session "r" none report (.fromPlace point) bound
  refine ⟨⟨whole, read, minted⟩, ⟨part, outer, inside, partRead, outerRead, inner, together⟩,
    session, bound, stored, ?_⟩
  rw [kept, stored]

end Session

end CompilerReports
