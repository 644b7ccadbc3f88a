import CompilerReports.Proofs.Policy.Resolution
import CompilerReports.Proofs.Session.Emission

/-! Reports about rejected names. Every name that a policy rejects has a payload that the external
category accepts, and all of them are reported from one site; so they are reported together, or
none of them is because the site cannot be told.
-/

namespace CompilerReports

-----------------------------------------------------------------------------------------
-- Reports about rejected names
-----------------------------------------------------------------------------------------

namespace Policy

/-- The report about a rejected name at the given site. -/
def report (site : Point) (payload : Payload) : Report where
  category := .external
  payload
  site
  location := none
  context := []

/-- A policy that is read from an input is resolved from the names that the input gives. -/
theorem exists_resolve_of_ofJson? {input : Json} {policy : Policy}
    (read : ofJson? input = some policy)
    : ∃ asError asWarning, policy = resolve asError asWarning := by
  simp only [ofJson?, Option.bind_eq_bind, Option.pure_def, Option.bind_eq_some_iff,
    Option.some.injEq] at read
  obtain ⟨asError, _, asWarning, _, rfl⟩ := read
  exact ⟨asError, asWarning, rfl⟩

/-- The values that are read as texts are those of the texts, by induction on the values. -/
theorem mapM_text?_eq_some_iff {items : List Json} {texts : List String}
    : items.mapM Json.text? = some texts ↔ items = texts.map Json.text := by
  induction items generalizing texts with
  | nil => cases texts <;> simp
  | cons item rest ih =>
      simp only [List.mapM_cons, Option.bind_eq_bind, Option.pure_def, Option.bind_eq_some_iff,
        Option.some.injEq, ih]
      cases item with
      | text text => cases texts <;> simp [Json.text?, and_left_comm]
      | _ => cases texts <;> simp [Json.text?]

/-- A switch is given names by a list of texts, or by one text that is a name a character. -/
theorem names?_eq_some_iff {value : Json} {names : List String}
    : names? value = some names
      ↔ value = Json.ofTexts names
        ∨ ∃ text : String,
            value = .text text ∧ names = text.toList.map fun c => String.ofList [c] := by
  cases value with
  | text text => simp [names?, Json.ofTexts, eq_comm]
  | list items => simp [names?, Json.texts?, Json.list?, Json.ofTexts, mapM_text?_eq_some_iff]
  | _ => simp [names?, Json.texts?, Json.list?, Json.ofTexts]

/-- A report about a rejected name is an error by default, and under overrides a warning where they
list the kind of rejections as one and not as an error.
-/
theorem severity_report (site : Point) {payload : Payload}
    (rejection : payload.kind = rejectionKind) (overrides : Overrides)
    : (report site payload).severity overrides
      = if rejectionKind ∈ overrides.asWarning ∧ rejectionKind ∉ overrides.asError then .warning
        else .error := by
  have byDefault : Category.external.severity rejectionKind = .error := by rfl
  have kind : (report site payload).kind = rejectionKind := rejection
  have category : (report site payload).category = .external := rfl
  simp only [Report.severity, kind, category, byDefault, List.contains_iff_mem]
  by_cases error : rejectionKind ∈ overrides.asError <;> simp [error]

/-- The reports are about the names that a policy rejects: one for each payload, which it carries
unchanged, and each an error by default and a warning only where the policy says so.
-/
structure Reports (policy : Policy) (reports : List Report) : Prop where
  payloads : reports.map Report.payload = policy.rejected
  external : ∀ report ∈ reports, report.category = .external
  byDefault
    : ∀ report ∈ reports,
        Kind.defaultSeverity report.kind = .ok .error ∧ report.severity {} = .error
  underPolicy
    : ∀ report ∈ reports,
        report.severity policy.overrides
        = if rejectionKind ∈ policy.overrides.asWarning ∧ rejectionKind ∉ policy.overrides.asError
          then .warning
          else .error

/-- Reports about rejected names at one site are what a resolved policy has to say. -/
theorem reports_of_resolved {policy : Policy}
    (rejections : ∀ payload ∈ policy.rejected, payload.kind = rejectionKind) (site : Point)
    : policy.Reports (policy.rejected.map (report site)) where
  payloads := by
    rw [List.map_map]
    exact List.map_id _
  external := by
    intro found member
    obtain ⟨payload, _, rfl⟩ := List.mem_map.mp member
    rfl
  byDefault := by
    intro found member
    obtain ⟨payload, rejected, rfl⟩ := List.mem_map.mp member
    have kind : (report site payload).kind = rejectionKind := rejections payload rejected
    refine ⟨?_, ?_⟩
    · rw [kind]
      rfl
    · simpa using severity_report site (rejections payload rejected) {}
  underPolicy := by
    intro found member
    obtain ⟨payload, rejected, rfl⟩ := List.mem_map.mp member
    exact severity_report site (rejections payload rejected) policy.overrides

end Policy

namespace Session

/-- The site is given, or shown by the frames of the stack, or refused for the first of them whose
file cannot be told.
-/
theorem rejectionSite_cases (site : Option Point) (stack : Option String)
    : (∃ point,
        rejectionSite site stack = .ok point
        ∧ ¬ (site = none ∧ ∃ cause, framesOf (stack.getD "") = .error cause))
      ∨ ∃ cause,
          rejectionSite site stack = .error (.url cause)
          ∧ site = none
          ∧ framesOf (stack.getD "") = .error cause := by
  cases site with
  | some point => exact Or.inl ⟨point, rfl, fun fails => Option.some_ne_none point fails.1⟩
  | none =>
      cases read : framesOf (stack.getD "") with
      | ok frames =>
          refine Or.inl ⟨_, Draft.siteOrShown_of_frames rfl read, ?_⟩
          rintro ⟨_, _, bad⟩
          cases bad
      | error cause => exact Or.inr ⟨cause, Draft.siteOrShown_of_error rfl read, rfl, rfl⟩

-----------------------------------------------------------------------------------------
-- Emitting the reports about rejected names
-----------------------------------------------------------------------------------------

/-- The reports about the rejected names of a policy are minted together, or there is one to mint,
no site is given, and all are refused for the first frame of the stack that cannot be read.
-/
theorem rejections_minted_or_refused {policy : Policy}
    (rejections : ∀ payload ∈ policy.rejected, payload.kind = Policy.rejectionKind)
    (site : Option Point) (stack : Option String)
    : let drafts := policy.rejected.map (rejectionDraft site stack)
      (∃ reports,
        policy.Reports reports
        ∧ drafts.mapM Draft.mint = .ok reports
        ∧ ¬ (policy.rejected ≠ []
            ∧ site = none
            ∧ ∃ cause, framesOf (stack.getD "") = .error cause))
      ∨ ∃ cause,
          policy.rejected ≠ []
          ∧ site = none
          ∧ framesOf (stack.getD "") = .error cause
          ∧ ∀ draft ∈ drafts, draft.mint = .error (.url cause) := by
  intro drafts
  have alike := rejectionDrafts_alike rejections site stack
  rcases rejectionSite_cases site stack with ⟨point, sited, works⟩ | ⟨cause, unsited, absent, bad⟩
  · rw [sited] at alike
    have minted : drafts.mapM Draft.mint = .ok (policy.rejected.map (Policy.report point)) := by
      rw [mapM_mint_of_alike alike, List.map_map]
      rfl
    exact Or.inl ⟨_, Policy.reports_of_resolved rejections point, minted,
      fun fails => works fails.2⟩
  · rw [unsited] at alike
    by_cases none : policy.rejected = []
    · refine Or.inl ⟨_, Policy.reports_of_resolved rejections .unknown, ?_,
        fun fails => fails.1 none⟩
      simp only [drafts, none, List.map_nil]
      rfl
    · exact Or.inr ⟨cause, none, absent, bad, mint_of_alike alike⟩

/-- Reports about the rejected names of a bound policy that all mint are added at once. -/
theorem step_emitRejected_of_minted {session : Session} {name : String} {policy : Policy}
    {site : Option Point} {stack : Option String} {reports : List Report}
    (bound : session.policies.get? name = some policy)
    (minted : (policy.rejected.map (rejectionDraft site stack)).mapM Draft.mint = .ok reports)
    (ledger : String)
    : let emitted := session.step (.emitRejected ledger name site stack)
      emitted.1.ledger ledger = (session.ledger ledger).append reports
        ∧ emitted.2.outcome
          = .ok (.ids (List.range' (session.nextId ledger) reports.length)) := by
  have judged : session.judge (.emitRejected ledger name site stack)
      = { added := reports
          outcome := .ok (.ids (List.range' (session.nextId ledger) reports.length)) } := by
    simp only [judge, Verdict.withBound, bound, mintAll_of_mapM minted]
  refine ⟨?_, ?_⟩
  · rw [step_ledger_self rfl, judged]
  · rw [step_outcome, judged]

/-- Where the first of them is refused, the command is refused for that reason. -/
theorem step_emitRejected_of_refused {session : Session} {name : String} {policy : Policy}
    {site : Option Point} {stack : Option String} {refusal : Refusal}
    (bound : session.policies.get? name = some policy) (present : policy.rejected ≠ [])
    (refused
      : ∀ draft ∈ policy.rejected.map (rejectionDraft site stack), draft.mint = .error refusal)
    (ledger : String)
    : let emitted := session.step (.emitRejected ledger name site stack)
      (∀ other, emitted.1.ledger other = session.ledger other)
        ∧ emitted.2.outcome = .error (.refused refusal) := by
  have given : policy.rejected.map (rejectionDraft site stack) ≠ [] :=
    fun none => present (List.map_eq_nil_iff.mp none)
  have judged : session.judge (.emitRejected ledger name site stack) = Verdict.refuse refusal := by
    simp only [judge, Verdict.withBound, bound, (mintAll_of_refused given refused).2]
    rfl
  obtain ⟨fails, _, keeps⟩ := step_of_refused judged
  exact ⟨keeps, fails⟩

-----------------------------------------------------------------------------------------
-- All or none
-----------------------------------------------------------------------------------------

/-- Rejected names are reported all or none. Whether the reports about the names that a policy
rejects are emitted one by one or by one command, they are all added, each with its payload as it
was and under the next id, or no ledger changes and each is refused for the first frame of the
stack that cannot be read. They fail only where there is one to emit, no site is given and the
stack has such a frame. What is added is an error, by default and under the policy itself unless
the policy lists the kind of rejections as a warning and not as an error. Witness: all the drafts
pass the gate and share one site.
-/
theorem rejections_all_or_none {input : Json} {policy : Policy}
    (read : Policy.ofJson? input = some policy) (session : Session) (carrier : Carrier)
    (site : Option Point) (stack : Option String)
    : let ledger := carrier.ledger
      let drafts := policy.rejected.map (rejectionDraft site stack)
      let emits := drafts.map (Command.emit carrier)
      let emitted := session.finish emits
      let outcomes := (session.replies emits).map Reply.outcome
      let ids := List.range' (session.nextId ledger) policy.rejected.length
      let atOnce := fun name => session.step (.emitRejected ledger name site stack)
      ((∃ added,
          policy.Reports added
          ∧ emitted.ledger ledger = (session.ledger ledger).append added
          ∧ outcomes = ids.map (fun id => .ok (.id id))
          ∧ ∀ name,
              session.policies.get? name = some policy
              → (atOnce name).1.ledger ledger = (session.ledger ledger).append added
                ∧ (atOnce name).2.outcome = .ok (.ids ids))
        ∨ ∃ cause,
            1 ≤ policy.rejected.length
            ∧ site = none
            ∧ framesOf (stack.getD "") = .error cause
            ∧ (∀ other, emitted.ledger other = session.ledger other)
            ∧ outcomes
              = List.replicate policy.rejected.length (.error (.refused (.url cause)))
            ∧ ∀ name,
                session.policies.get? name = some policy
                → (∀ other, (atOnce name).1.ledger other = session.ledger other)
                  ∧ (atOnce name).2.outcome = .error (.refused (.url cause)))
      ∧ ((∃ failure, .error failure ∈ outcomes)
        ↔ 1 ≤ policy.rejected.length
          ∧ site = none
          ∧ ∃ cause, framesOf (stack.getD "") = .error cause) := by
  intro ledger drafts emits emitted outcomes ids atOnce
  obtain ⟨asError, asWarning, resolved⟩ := Policy.exists_resolve_of_ofJson? read
  have rejections : ∀ payload ∈ policy.rejected, payload.kind = Policy.rejectionKind := by
    rw [resolved]
    exact fun payload member => Policy.kind_of_mem_rejected member
  have present : policy.rejected ≠ [] ↔ 1 ≤ policy.rejected.length :=
    List.length_pos_iff.symm
  rcases rejections_minted_or_refused rejections site stack with
    ⟨reports, about, minted, works⟩ | ⟨cause, some, absent, bad, refused⟩
  · have length : reports.length = policy.rejected.length := by
      rw [← about.payloads, List.length_map]
    have numbered : ids = List.range' (session.nextId ledger) reports.length := by
      rw [length]
    obtain ⟨grown, answered⟩ := finish_emits minted session carrier
    have answered : outcomes = ids.map fun id => .ok (.id id) := numbered ▸ answered
    refine ⟨Or.inl ⟨reports, about, grown, answered, ?_⟩, ?_⟩
    · intro name bound
      rw [numbered]
      exact step_emitRejected_of_minted bound minted ledger
    · rw [← present]
      refine iff_of_false ?_ works
      rintro ⟨failure, member⟩
      rw [answered] at member
      obtain ⟨id, _, same⟩ := List.mem_map.mp member
      cases same
  · obtain ⟨kept, answered⟩ := finish_emits_of_refused refused session carrier
    rw [List.length_map] at answered
    have answered : outcomes
        = List.replicate policy.rejected.length (.error (.refused (.url cause))) := answered
    refine ⟨Or.inr ⟨cause, present.mp some, absent, bad, kept, answered, ?_⟩, ?_⟩
    · intro name bound
      exact step_emitRejected_of_refused bound some refused ledger
    · refine iff_of_true ⟨.refused (.url cause), ?_⟩ ⟨present.mp some, absent, cause, bad⟩
      rw [answered]
      exact List.mem_replicate.mpr ⟨Nat.ne_of_gt (present.mp some), rfl⟩

/-- A text gives one switch two names by its characters, and a list gives the other one a kind and a
name that is none. The three reports are added after the one that the ledger holds, and they are
warnings under the policy; without a site none is added, for a file URL with an encoded slash.
-/
theorem rejections_all_or_none_by_character
    : let input : Json := .object [("asError", .text "é1"),
        ("asWarning", Json.ofTexts ["ext-invalid-warning", "nope"])]
      let policy := Policy.resolve ["é", "1"] ["ext-invalid-warning", "nope"]
      let held : Report := ⟨.command, ⟨"cmd-cc", []⟩, .unknown, none, []⟩
      let session : Session := { ledgers := ⟨[("main", ⟨[held]⟩)]⟩ }
      let site : Point := ⟨"compiler.ts", .ofNat 3, .ofNat 1⟩
      let stack := some "at f (file:///%2F:1:2)"
      let emits := fun site =>
        (policy.rejected.map (rejectionDraft site stack)).map (Command.emit (.context "main"))
      Policy.ofJson? input = some policy
      ∧ (∃ added,
          policy.Reports added
          ∧ (session.finish (emits (some site))).ledger "main" = ⟨held :: added⟩
          ∧ (session.replies (emits (some site))).map Reply.outcome
            = [.ok (.id 2), .ok (.id 3), .ok (.id 4)]
          ∧ ∀ report ∈ added, report.severity policy.overrides = .warning)
      ∧ (session.finish (emits none)).ledger "main" = ⟨[held]⟩
      ∧ (session.replies (emits none)).map Reply.outcome
        = List.replicate 3 (.error (.refused (.url .encodedSlash))) := by
  intro input policy held session site stack emits
  have read : Policy.ofJson? input = some policy := by rfl
  have length : policy.rejected.length = 3 := by rfl
  have bad : framesOf "at f (file:///%2F:1:2)" = .error .encodedSlash := by rfl
  obtain ⟨given, _⟩ := rejections_all_or_none read session (.context "main") (some site) stack
  obtain ⟨shown, fails⟩ := rejections_all_or_none read session (.context "main") none stack
  refine ⟨read, ?_, ?_⟩
  · obtain ⟨added, about, grown, answered, _⟩ | ⟨_, _, absent, _⟩ := given
    · exact ⟨added, about, grown, answered, about.underPolicy⟩
    · cases absent
  · obtain ⟨added, _, _, answered, _⟩ | ⟨cause, _, _, same, kept, answered, _⟩ := shown
    · obtain ⟨failure, member⟩ := fails.mpr ⟨length ▸ by decide, rfl, _, bad⟩
      rw [answered] at member
      obtain ⟨id, _, same⟩ := List.mem_map.mp member
      cases same
    · obtain rfl : cause = .encodedSlash := Except.error.inj (same.symm.trans bad)
      exact ⟨kept "main", answered⟩

end Session

end CompilerReports
