import CompilerReports.Proofs.Policy.Resolution

/-! Copies of what a report is given. Positions and steps are read from values and shown as values
again, with the declared fields only, so a copy of a copy is the copy itself. A report shows
nothing that is not such a copy; minted again from its own parts it is therefore the same report.
-/

namespace CompilerReports

-----------------------------------------------------------------------------------------
-- Copies
-----------------------------------------------------------------------------------------

/-- The copy of a value: what is shown of that which is read from it, if it can be read. -/
def Json.copyBy? {α : Type} (read : Json → Option α) (shown : α → Json) (value : Json)
    : Option Json :=
  (read value).map shown

/-- Line info as a report stores it: a bare point is put under its kind, and further fields are
dropped.
-/
def LineInfo.copy? : Json → Option Json := Json.copyBy? ofJson? toJson

/-- An instantiation step as a report stores it. -/
def Instantiation.copy? : Json → Option Json := Json.copyBy? ofJson? toJson

section

variable {α : Type} {read : Json → Option α} {shown : α → Json}
  (back : ∀ item, read (shown item) = some item)

include back

/-- What is shown is read back, so copying twice is copying once. -/
theorem Json.copyBy?_copyBy? (value : Json)
    : (copyBy? read shown value).bind (copyBy? read shown) = copyBy? read shown value := by
  unfold copyBy?
  cases read value with
  | none => rfl
  | some item => simp [back]

/-- Items that are shown one by one are read back one by one, by induction on them. -/
theorem Json.mapM_map_shown (items : List α)
    : (items.map shown).mapM read = some items := by
  induction items with
  | nil => rfl
  | cons item rest ih =>
      rw [List.map_cons, List.mapM_cons, back, ih]
      rfl

end

/-- A bare point is copied as the line info that holds it, whatever further fields it has. -/
theorem LineInfo.copy?_of_bare {fields : List (String × Json)}
    (bare : (Json.object fields).field? "kind" = none)
    : copy? (.object fields)
      = copy? (.object [("kind", .text "point"), ("point", .object fields)]) := by
  have wrapped : ofJson? (.object [("kind", .text "point"), ("point", .object fields)])
      = (Point.ofJson? (.object fields)).map .point := rfl
  have unwrapped : ofJson? (.object fields) = (Point.ofJson? (.object fields)).map .point := by
    rw [ofJson?, bare]
  rw [copy?, Json.copyBy?, Json.copyBy?, wrapped, unwrapped]

-----------------------------------------------------------------------------------------
-- Reports minted again
-----------------------------------------------------------------------------------------

namespace Report

/-- A report taken apart to be minted again: each part is given as the report shows it. -/
def apart (report : Report) (stack : Option String) : RawDraft where
  category := report.category.name
  payload := report.payload
  site := some report.site.toJson
  location := report.location.map LineInfo.toJson
  context := report.context.map Instantiation.toJson
  stack

/-- The parts of a report are read as they are. -/
theorem read?_apart (report : Report) (stack : Option String)
    : (report.apart stack).read?
      = some {
          category := report.category.name
          payload := report.payload
          site := some report.site
          location := report.location
          context := report.context
          stack } := by
  have site : (some report.site.toJson).mapM Point.ofJson? = some (some report.site) := by
    rw [Option.mapM_some, Point.ofJson?_toJson]
    rfl
  have location : (report.location.map LineInfo.toJson).mapM LineInfo.ofJson?
      = some report.location := by
    cases report.location with
    | none => rfl
    | some info =>
        rw [Option.map_some, Option.mapM_some, LineInfo.ofJson?_toJson]
        rfl
  have context := Json.mapM_map_shown Instantiation.ofJson?_toJson report.context
  simp only [RawDraft.read?, apart, site, location, context]
  rfl

/-- A draft that gives its site is minted without a look at the stack. -/
theorem mint_of_listed {report : Report} (listed : report.kind ∈ report.category.kinds)
    (stack : Option String)
    : Draft.mint {
          category := report.category.name
          payload := report.payload
          site := some report.site
          location := report.location
          context := report.context
          stack }
      = .ok report := by
  let draft : Draft := {
    category := report.category.name
    payload := report.payload
    site := some report.site
    location := report.location
    context := report.context
    stack }
  have fits : draft.FitsIn report.category := ⟨rfl, listed⟩
  rw [Draft.mint_of_fitsIn fits, Draft.siteOrShown_of_given rfl]
  rfl

/-- A report that a session can hold is minted again from its own parts, whatever the stack says,
since its kind passes the gate and its site is given. Copying is what makes the parts fit: of line
info and of instantiation steps a copy of a copy is the copy, whatever fields and kinds the values
have, and a bare point is copied as the line info that holds it.
-/
theorem minted_again
    : (∀ report : Report,
        report.Reachable
        → ∀ stack : Option String,
            ∃ draft, (report.apart stack).read? = some draft ∧ draft.mint = .ok report)
      ∧ (∀ value, (LineInfo.copy? value).bind LineInfo.copy? = LineInfo.copy? value)
      ∧ (∀ value,
          (Instantiation.copy? value).bind Instantiation.copy? = Instantiation.copy? value)
      ∧ ∀ fields,
          (Json.object fields).field? "kind" = none
          → LineInfo.copy? (.object fields)
            = LineInfo.copy? (.object [("kind", .text "point"), ("point", .object fields)]) := by
  refine ⟨?_, ?_, ?_, ?_⟩
  · rintro report ⟨session, reached, held⟩ stack
    exact ⟨_, report.read?_apart stack, mint_of_listed (reached.enveloped held).listed stack⟩
  · exact Json.copyBy?_copyBy? LineInfo.ofJson?_toJson
  · exact Json.copyBy?_copyBy? Instantiation.ofJson?_toJson
  · exact fun fields bare => LineInfo.copy?_of_bare bare

/-- An emitted report is minted again although the stack shows a file URL that names no path; and a
bare point with a further field is copied as line info.
-/
theorem minted_again_beside_bad_url
    : let place : Point := ⟨"a.ts", .nan, .infinite true⟩
      let draft : Draft := {
        category := "cmd"
        payload := ⟨"cmd-cc", [("note", .null)]⟩
        site := some .unknown
        location := some (.point place)
        context := [.ofSymbol place ⟨"T", "type", none⟩, .fromPlace .unknown] }
      let report : Report :=
        ⟨.command, draft.payload, .unknown, draft.location, draft.context⟩
      let stack := "at f (file:///%2F:1:2)"
      let bare := [("file", .text "a.ts"), ("line", .number .nan),
        ("column", .number (.infinite true)), ("note", .null)]
      (Session.finish {} [.emit (.direct "main") draft]).Holds report
      ∧ framesOf stack = .error .encodedSlash
      ∧ (∃ parts, (report.apart (some stack)).read? = some parts ∧ parts.mint = .ok report)
      ∧ (Json.object bare).field? "kind" = none
      ∧ LineInfo.copy? (.object bare)
        = LineInfo.copy? (.object [("kind", .text "point"), ("point", .object bare)])
      ∧ LineInfo.copy? (.object bare) = some (LineInfo.point place).toJson := by
  intro place draft report stack bare
  have stored : ((Session.finish {} [.emit (.direct "main") draft]).ledger "main").reports
      = [report] := rfl
  have held : (Session.finish {} [.emit (.direct "main") draft]).Holds report :=
    .stored (stored ▸ List.mem_singleton_self report)
  have unread : framesOf "at f (file:///%2F:1:2)" = .error .encodedSlash := by rfl
  obtain ⟨again, _, _, bared⟩ := minted_again
  exact ⟨held, unread, again report ⟨_, ⟨_, rfl⟩, held⟩ (some stack), rfl, bared bare rfl, rfl⟩

end Report

end CompilerReports
