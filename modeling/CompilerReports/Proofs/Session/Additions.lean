import CompilerReports.Proofs.Report.Minting
import CompilerReports.Proofs.Session.Effects

/-! What commands add to ledgers. The reports that a command is to add are told from the command
and the session alone; a reachable session adds all of them under the next ids, or none at all.
The one command with several reports is whole because they share the gate and the site: every
bound policy was resolved, so all its rejected names have one kind.
-/

namespace CompilerReports

-----------------------------------------------------------------------------------------
-- Bound policies were resolved
-----------------------------------------------------------------------------------------

/-- Every payload that a resolved policy rejects has the one kind of rejections. -/
theorem Policy.kind_of_mem_rejected {asError asWarning : List String} {payload : Payload}
    (member : payload ∈ (resolve asError asWarning).rejected)
    : payload.kind = rejectionKind := by
  rcases List.mem_append.mp member with errors | warnings
  · obtain ⟨name, _, rfl⟩ := List.mem_map.mp errors
    rfl
  · obtain ⟨name, _, rfl⟩ := List.mem_map.mp warnings
    rfl

namespace Session

/-- Every policy of the session is one that names were resolved to. -/
def PoliciesResolved (session : Session) : Prop :=
  ∀ name policy, session.policies.get? name = some policy
    → ∃ asError asWarning, policy = Policy.resolve asError asWarning

/-- A command binds no policy but a resolved one. -/
theorem PoliciesResolved.step {session : Session} (resolved : session.PoliciesResolved)
    (command : Command)
    : (session.step command).1.PoliciesResolved := by
  rcases session.step_policies command with same | ⟨bound, asError, asWarning, set⟩
  · intro name policy found
    rw [same] at found
    exact resolved name policy found
  · intro name policy found
    rw [set] at found
    by_cases here : name = bound
    · subst name
      rw [Bindings.get?_set_self] at found
      exact ⟨asError, asWarning, (Option.some.inj found).symm⟩
    · rw [Bindings.get?_set_of_ne _ here] at found
      exact resolved name policy found

theorem Reachable.policiesResolved {session : Session} (reachable : session.Reachable)
    : session.PoliciesResolved := by
  refine reachable.keeps ?_ fun session command resolved => resolved.step command
  intro name policy found
  cases found

-----------------------------------------------------------------------------------------
-- Rejected names are reported together
-----------------------------------------------------------------------------------------

/-- The site that reports about rejected names are given, or that the stack shows for them. -/
def rejectionSite (site : Option Point) (stack : Option String) : Except Refusal Point :=
  Draft.siteOrShown (rejectionDraft site stack ⟨Policy.rejectionKind, []⟩)

/-- The reports about rejected names pass the gate of the external category, and share their site.
-/
theorem rejectionDrafts_alike {payloads : List Payload}
    (rejections : ∀ payload ∈ payloads, payload.kind = Policy.rejectionKind)
    (site : Option Point) (stack : Option String)
    : ∀ draft ∈ payloads.map (rejectionDraft site stack),
        draft.FitsIn .external ∧ draft.siteOrShown = rejectionSite site stack := by
  intro draft member
  obtain ⟨payload, rejected, rfl⟩ := List.mem_map.mp member
  refine ⟨⟨rfl, ?_⟩, rfl⟩
  change payload.kind ∈ Kind.external
  rw [rejections payload rejected]
  simp [Policy.rejectionKind, Kind.external, Kind.externalError, Kind.externalCommandLine]

/-- Drafts that are minted together are minted one after the other. -/
theorem eq_cons_of_mapM_mint {draft : Draft} {rest : List Draft} {reports : List Report}
    (minted : (draft :: rest).mapM Draft.mint = .ok reports)
    : ∃ report others,
        draft.mint = .ok report
        ∧ rest.mapM Draft.mint = .ok others
        ∧ reports = report :: others := by
  rw [List.mapM_cons] at minted
  cases first : draft.mint with
  | error refusal =>
      rw [first] at minted
      cases minted
  | ok report =>
      cases later : rest.mapM Draft.mint with
      | error refusal =>
          rw [first, later] at minted
          cases minted
      | ok others =>
          rw [first, later] at minted
          cases minted
          exact ⟨report, others, rfl, rfl, rfl⟩

/-- Drafts that all mint are minted in order, by induction on the drafts. -/
theorem mintAll_of_mapM {drafts : List Draft} {reports : List Report}
    (minted : drafts.mapM Draft.mint = .ok reports)
    : mintAll drafts = (reports, none) := by
  induction drafts generalizing reports with
  | nil =>
      cases minted
      rfl
  | cons draft rest ih =>
      obtain ⟨report, others, first, later, rfl⟩ := eq_cons_of_mapM_mint minted
      simp only [mintAll, first, ih later]

/-- Drafts that fit one category and have one site are minted together, by induction on the drafts.
-/
theorem mapM_mint_of_alike {drafts : List Draft} {category : Category} {site : Point}
    (alike : ∀ draft ∈ drafts, draft.FitsIn category ∧ draft.siteOrShown = .ok site)
    : drafts.mapM Draft.mint = .ok (drafts.map fun draft => draft.reportAt category site) := by
  induction drafts with
  | nil => rfl
  | cons draft rest ih =>
      obtain ⟨⟨fits, sited⟩, later⟩ := List.forall_mem_cons.mp alike
      rw [List.map_cons, List.mapM_cons, Draft.mint_of_fitsIn fits, sited, ih later]
      rfl

/-- Drafts that fit one category and have no site are refused for the same reason. -/
theorem mint_of_alike {drafts : List Draft} {category : Category} {refusal : Refusal}
    (alike : ∀ draft ∈ drafts, draft.FitsIn category ∧ draft.siteOrShown = .error refusal)
    : ∀ draft ∈ drafts, draft.mint = .error refusal := by
  intro draft member
  obtain ⟨fits, unsited⟩ := alike draft member
  rw [Draft.mint_of_fitsIn fits, unsited]
  rfl

/-- Drafts that are refused for one reason come to the refusal before any report. -/
theorem mintAll_of_refused {drafts : List Draft} {refusal : Refusal} (given : drafts ≠ [])
    (refused : ∀ draft ∈ drafts, draft.mint = .error refusal)
    : drafts.mapM Draft.mint = .error refusal ∧ mintAll drafts = ([], some refusal) := by
  obtain ⟨first, rest, rfl⟩ := List.exists_cons_of_ne_nil given
  have here := refused first List.mem_cons_self
  refine ⟨?_, ?_⟩
  · rw [List.mapM_cons, here]
    rfl
  · rw [mintAll, here]

/-- The reports about the names that a policy rejects, unless one of them is refused. -/
def rejectionReports (policy : Policy) (site : Option Point) (stack : Option String)
    : Except Refusal (List Report) :=
  (policy.rejected.map (rejectionDraft site stack)).mapM Draft.mint

/-- The rejected names of a resolved policy are reported all or none. Witness: the site decides for
the first of them as for every other, so a refusal comes before any report.
-/
theorem mintAll_rejected {session : Session} (resolved : session.PoliciesResolved)
    {name : String} {policy : Policy} (bound : session.policies.get? name = some policy)
    (site : Option Point) (stack : Option String)
    : mintAll (policy.rejected.map (rejectionDraft site stack))
      = match rejectionReports policy site stack with
        | .ok reports => (reports, none)
        | .error refusal => ([], some refusal) := by
  obtain ⟨asError, asWarning, rfl⟩ := resolved name policy bound
  have alike := rejectionDrafts_alike
    (fun payload (member : payload ∈ (Policy.resolve asError asWarning).rejected) =>
      Policy.kind_of_mem_rejected member) site stack
  rw [rejectionReports]
  cases sited : rejectionSite site stack with
  | ok point =>
      rw [sited] at alike
      have minted := mapM_mint_of_alike alike
      rw [mintAll_of_mapM minted, minted]
  | error refusal =>
      rw [sited] at alike
      by_cases given : (Policy.resolve asError asWarning).rejected.map (rejectionDraft site stack)
          = []
      · rw [given]
        rfl
      · obtain ⟨refused, none⟩ := mintAll_of_refused given (mint_of_alike alike)
        rw [none, refused]

-----------------------------------------------------------------------------------------
-- What a command is to add, and the ids it gives out
-----------------------------------------------------------------------------------------

/-- The reports that a command is to add to its ledger: the report that it names, the one that it
mints, or one for each name that a policy rejected. A command of any other kind, and one that
has to fail, is to add none.
-/
def contribution (session : Session) : Command → List Report
  | .add _ report => (session.reports.get? report).toList
  | .emit _ draft | .abort _ draft => draft.mint.toOption.toList
  | .emitRejected _ policy site stack =>
      match session.policies.get? policy with
      | some found => (rejectionReports found site stack).toOption.getD []
      | none => []
  | _ => []

end Session

/-- The ids that a command gives out, told from its outcome: those that it answers, and the one
that an abort carries with its error.
-/
def Command.issued : Command → Except Failure Answer → List Nat
  | .add _ _, .ok (.id id) => [id]
  | .emit _ _, .ok (.id id) => [id]
  | .emitRejected _ _ _ _, .ok (.ids ids) => ids
  | .abort _ _, .error (.aborted _ id _) => [id]
  | _, _ => []

namespace Session

/-- The verdict of a command adds what the command is to add and gives out the ids that follow
the size of its ledger.
-/
structure Adds (session : Session) (command : Command) (verdict : Verdict) : Prop where
  added : verdict.added = session.contribution command
  issued
    : ∀ name, command.ledger? = some name
        → command.issued verdict.outcome
          = List.range' (session.nextId name) (session.contribution command).length

/-- Once it is known what the command is to add, its verdict is compared with that alone. -/
theorem Adds.of_contribution {session : Session} {command : Command} {verdict : Verdict}
    {reports : List Report} (due : session.contribution command = reports)
    (added : verdict.added = reports)
    (issued
      : ∀ name,
          command.ledger? = some name
          → command.issued verdict.outcome
            = List.range' (session.nextId name) reports.length)
    : session.Adds command verdict := by
  subst reports
  exact ⟨added, issued⟩

theorem Adds.of_none {session : Session} {command : Command} {verdict : Verdict}
    (nothing : session.contribution command = [])
    (silent : ∀ outcome, command.issued outcome = []) (none : verdict.added = [])
    : session.Adds command verdict := by
  refine .of_contribution nothing none ?_
  intro name _
  exact silent verdict.outcome

/-- An addition adds the bound report, under the next id. -/
theorem judge_add_adds (session : Session) (ledger report : String)
    : session.Adds (.add ledger report) (session.judge (.add ledger report)) := by
  simp only [judge, Verdict.withBound]
  cases bound : session.reports.get? report with
  | none =>
      have due : session.contribution (.add ledger report) = [] := by
        simp only [contribution, bound, Option.toList_none]
      refine .of_contribution due rfl ?_
      intro name named
      rfl
  | some found =>
      have due : session.contribution (.add ledger report) = [found] := by
        simp only [contribution, bound, Option.toList_some]
      refine .of_contribution due rfl ?_
      intro name named
      cases named
      rfl

/-- A command that mints a report to add it does so under the next id, whether it then answers
with the id or carries it in an error.
-/
theorem Adds.of_mint {session : Session} {command : Command} {draft : Draft}
    {use : Report → Verdict}
    (minting : session.contribution command = draft.mint.toOption.toList)
    (added : ∀ report, (use report).added = [report])
    (issued
      : ∀ report name,
          command.ledger? = some name
          → command.issued (use report).outcome = [session.nextId name])
    (refused : ∀ refusal, command.issued (.error (.refused refusal)) = [])
    : session.Adds command (.ofResult draft.mint use) := by
  cases minted : draft.mint with
  | error refusal =>
      have due : session.contribution command = [] := by
        rw [minting, minted]
        rfl
      refine .of_contribution due rfl ?_
      intro name _
      exact refused refusal
  | ok report =>
      have due : session.contribution command = [report] := by
        rw [minting, minted]
        rfl
      exact .of_contribution due (added report) (issued report)

/-- The reports about rejected names are added together, under the next ids, or none is. -/
theorem judge_emitRejected_adds {session : Session} (resolved : session.PoliciesResolved)
    (ledger policy : String) (site : Option Point) (stack : Option String)
    : session.Adds (.emitRejected ledger policy site stack)
        (session.judge (.emitRejected ledger policy site stack)) := by
  simp only [judge, Verdict.withBound]
  cases bound : session.policies.get? policy with
  | none =>
      have due : session.contribution (.emitRejected ledger policy site stack) = [] := by
        simp only [contribution, bound]
      refine .of_contribution due rfl ?_
      intro name named
      rfl
  | some found =>
      simp only [mintAll_rejected resolved bound site stack]
      have due : session.contribution (.emitRejected ledger policy site stack)
          = (rejectionReports found site stack).toOption.getD [] := by
        simp only [contribution, bound]
      cases reported : rejectionReports found site stack with
      | error refusal =>
          rw [reported] at due
          refine .of_contribution due rfl ?_
          intro name named
          rfl
      | ok reports =>
          rw [reported] at due
          refine .of_contribution due rfl ?_
          intro name named
          cases named
          rfl

/-- A session whose policies were resolved judges every command to add what it is to add, by the
cases of the command.
-/
theorem judge_adds {session : Session} (resolved : session.PoliciesResolved) (command : Command)
    : session.Adds command (session.judge command) := by
  cases command with
  | add ledger report => exact session.judge_add_adds ledger report
  | emit carrier draft | abort carrier draft =>
      apply Adds.of_mint rfl (fun _ => rfl)
      · intro report name named
        cases named
        rfl
      · exact fun _ => rfl
  | emitRejected ledger policy site stack =>
      exact judge_emitRejected_adds resolved ledger policy site stack
  | mint name draft =>
      exact .of_none rfl (fun _ => rfl)
        (Verdict.ofResult_cases (fun verdict => verdict.added = []) (fun _ _ => rfl)
          fun _ _ => rfl)
  | find ledger id name | findChecked ledger id name =>
      exact .of_none rfl (fun _ => rfl)
        (Verdict.ofResult_cases (fun verdict => verdict.added = []) (fun _ _ => rfl)
          fun _ _ => rfl)
  | within name report step =>
      exact .of_none rfl (fun _ => rfl)
        (Verdict.withBound_cases (fun verdict => verdict.added = []) (fun _ _ => rfl) rfl)
  | next cursor =>
      exact .of_none rfl (fun _ => rfl)
        (Verdict.withBound_cases (fun verdict => verdict.added = []) (fun _ _ => rfl) rfl)
  | kindOf report | describe report | isOf report category | readView view =>
      exact .of_none rfl (fun _ => rfl)
        (Verdict.withBound_onlyAnswers fun _ => Verdict.answer_onlyAnswers _).1
  | severity report judging =>
      exact .of_none rfl (fun _ => rfl) (Verdict.withBound_onlyAnswers fun _ =>
        withOverrides_onlyAnswers fun _ => Verdict.answer_onlyAnswers _).1
  | severities ledger judging =>
      exact .of_none rfl (fun _ => rfl)
        (withOverrides_onlyAnswers fun _ => Verdict.answer_onlyAnswers _).1
  | tally source judging | greatest source judging =>
      exact .of_none rfl (fun _ => rfl) (withSource_onlyAnswers fun _ =>
        withOverrides_onlyAnswers fun _ => Verdict.answer_onlyAnswers _).1
  | setTracing flag => exact .of_none rfl (fun _ => rfl) rfl
  | size ledger | reports ledger | entries ledger | kinds ledger =>
      exact .of_none rfl (fun _ => rfl) rfl
  | openView name ledger => exact .of_none rfl (fun _ => rfl) rfl
  | openCursor name ledger numbered => exact .of_none rfl (fun _ => rfl) rfl
  | resolve name asError asWarning => exact .of_none rfl (fun _ => rfl) rfl

end Session

end CompilerReports
