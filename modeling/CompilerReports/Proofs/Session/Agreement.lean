import CompilerReports.Proofs.Session.CursorTurns

/-! Sessions that agree on what a command can see. A command sees the tracing flag, the ledger that
it names and what the handles that it reads are bound to. Sessions that agree on these judge it
alike and agree again after it, and a command that keeps off them leaves the agreement as it was.
-/

namespace CompilerReports

-----------------------------------------------------------------------------------------
-- Handles
-----------------------------------------------------------------------------------------

/-- A name by which commands speak of something, with the sort of thing that it is bound to. -/
inductive Handle where
  | report (name : String)
  | policy (name : String)
  | view (name : String)
  | cursor (name : String)
  deriving DecidableEq

def Judging.handles : Judging → List Handle
  | .policy name => [.policy name]
  | .given _ => []

def Source.handles : Source → List Handle
  | .ledger _ => []
  | .reports names => names.map .report

namespace Command

/-- The handles whose bindings a command reads. -/
def reads : Command → List Handle
  | .within _ report _ | .kindOf report | .describe report | .isOf report _ | .add _ report =>
      [.report report]
  | .emitRejected _ policy _ _ => [.policy policy]
  | .readView view => [.view view]
  | .next cursor => [.cursor cursor]
  | .severity report judging => .report report :: judging.handles
  | .severities _ judging => judging.handles
  | .tally source judging | .greatest source judging => source.handles ++ judging.handles
  | _ => []

/-- The handle that a command binds if it succeeds. Taking the next report from a cursor binds the
cursor anew.
-/
def binds? : Command → Option Handle
  | .mint name _ | .within name _ _ | .find _ _ name | .findChecked _ _ name => name.map .report
  | .openView name _ => some (.view name)
  | .openCursor name _ _ => some (.cursor name)
  | .next name => some (.cursor name)
  | .resolve name _ _ => name.map .policy
  | _ => none

/-- The command names no ledger but the given one, and reads the given handles only. -/
structure KeepsTo (command : Command) (ledger : String) (handles : Handle → Prop) : Prop where
  named : ∀ name, command.ledger? = some name → name = ledger
  read : ∀ handle ∈ command.reads, handles handle

/-- The command does not name the given ledger, binds none of the given handles and leaves the
tracing flag alone.
-/
structure KeepsOff (command : Command) (ledger : String) (handles : Handle → Prop) : Prop where
  unnamed : command.ledger? ≠ some ledger
  unbound : ∀ handle, command.binds? = some handle → ¬ handles handle
  untraced : ∀ flag, command ≠ .setTracing flag

end Command

/-- The handle that a change binds. -/
def Change.handle? : Change → Option Handle
  | .nothing | .tracing _ => none
  | .report name _ => some (.report name)
  | .policy name _ => some (.policy name)
  | .view name _ => some (.view name)
  | .cursor name _ => some (.cursor name)

/-- (change.LeadsTo ledger) holds of the changes that bind no view and no cursor of another ledger.
-/
def Change.LeadsTo (ledger : String) : Change → Prop
  | .view _ shown => shown = ledger
  | .cursor _ bound => bound.ledger = ledger
  | _ => True

-----------------------------------------------------------------------------------------
-- Bindings that agree
-----------------------------------------------------------------------------------------

namespace Bindings

variable {α : Type} {names : String → Prop} {holds : α → Prop} {left right : Bindings α}

/-- The given names are bound alike on both sides, and to nothing but values of which `holds` holds.
-/
def Alike (names : String → Prop) (holds : α → Prop) (left right : Bindings α) : Prop :=
  ∀ name,
    names name
    → left.get? name = right.get? name ∧ ∀ value, left.get? name = some value → holds value

/-- Binding one name to one value on both sides keeps them alike. -/
theorem Alike.set_both (alike : Alike names holds left right) (bound : String) {given : α}
    (givenHolds : holds given)
    : Alike names holds (left.set bound given) (right.set bound given) := by
  intro name meant
  obtain ⟨same, before⟩ := alike name meant
  by_cases here : name = bound
  · subst here
    rw [get?_set_self, get?_set_self]
    exact ⟨rfl, fun value found => Option.some.inj found ▸ givenHolds⟩
  · rw [get?_set_of_ne left here, get?_set_of_ne right here]
    exact ⟨same, before⟩

/-- Binding another name on one side keeps both sides alike. -/
theorem Alike.set_left (alike : Alike names holds left right) {bound : String}
    (unmeant : ¬ names bound) (given : α)
    : Alike names holds (left.set bound given) right := by
  intro name meant
  have other : name ≠ bound := fun same => unmeant (same ▸ meant)
  rw [get?_set_of_ne left other]
  exact alike name meant

end Bindings

/-- What is done with a name that both sides bind alike is the same on both sides. -/
theorem Verdict.withBound_congr {α : Type} {names : String → Prop} {holds : α → Prop}
    {left right : Bindings α} (alike : Bindings.Alike names holds left right) {name : String}
    (meant : names name) {use other : α → Verdict}
    (used : ∀ value, holds value → use value = other value)
    : withBound left name use = withBound right name other := by
  obtain ⟨same, leftHolds⟩ := alike name meant
  unfold withBound
  rw [← same]
  split
  · exact used _ (leftHolds _ ‹_›)
  · rfl

namespace Session

/-- (session.Leads ledger handle) holds unless the handle is bound to a view or a cursor of another
ledger.
-/
def Leads (session : Session) (ledger : String) : Handle → Prop
  | .view name => ∀ shown, session.views.get? name = some shown → shown = ledger
  | .cursor name => ∀ cursor, session.cursors.get? name = some cursor → cursor.ledger = ledger
  | _ => True

-----------------------------------------------------------------------------------------
-- Sessions that agree
-----------------------------------------------------------------------------------------

/-- Two sessions show the same to all that looks at one ledger and at the given handles, and the
views and cursors among these are of that ledger.
-/
structure AgreeOn (ledger : String) (handles : Handle → Prop) (left right : Session) : Prop where
  tracing : left.tracing = right.tracing
  held : left.ledger ledger = right.ledger ledger
  reports
    : Bindings.Alike (fun name => handles (.report name)) (fun _ => True) left.reports
        right.reports
  policies
    : Bindings.Alike (fun name => handles (.policy name)) (fun _ => True) left.policies
        right.policies
  views
    : Bindings.Alike (fun name => handles (.view name)) (fun shown => shown = ledger) left.views
        right.views
  cursors
    : Bindings.Alike (fun name => handles (.cursor name)) (fun cursor => cursor.ledger = ledger)
        left.cursors right.cursors

variable {ledger : String} {handles : Handle → Prop} {left right : Session} {command : Command}

/-- A session agrees with itself where its views and cursors are of the ledger. -/
theorem AgreeOn.refl {session : Session}
    (leads : ∀ handle, handles handle → session.Leads ledger handle)
    : AgreeOn ledger handles session session where
  tracing := rfl
  held := rfl
  reports _ _ := ⟨rfl, fun _ _ => trivial⟩
  policies _ _ := ⟨rfl, fun _ _ => trivial⟩
  views name meant := ⟨rfl, leads (.view name) meant⟩
  cursors name meant := ⟨rfl, leads (.cursor name) meant⟩

namespace AgreeOn

theorem withOverrides_eq (agree : AgreeOn ledger handles left right) {judging : Judging}
    (read : ∀ handle ∈ judging.handles, handles handle) (use : Overrides → Verdict)
    : left.withOverrides judging use = right.withOverrides judging use := by
  cases judging with
  | policy name =>
      exact Verdict.withBound_congr agree.policies (read _ (List.mem_singleton_self _))
        fun _ _ => rfl
  | given overrides => rfl

/-- Names that both sessions bind alike name the same reports, by induction on the names. -/
theorem reportsNamed_eq (agree : AgreeOn ledger handles left right) {names : List String}
    (read : ∀ name ∈ names, handles (.report name))
    : left.reportsNamed names = right.reportsNamed names := by
  induction names with
  | nil => rfl
  | cons name rest ih =>
      have here := (agree.reports name (read name List.mem_cons_self)).1
      have later := ih fun other member => read other (List.mem_cons_of_mem _ member)
      simp only [reportsNamed, here, later]

theorem withSource_eq (agree : AgreeOn ledger handles left right) {source : Source}
    (named : ∀ name, source = .ledger name → name = ledger)
    (read : ∀ handle ∈ source.handles, handles handle) {use other : List Report → Verdict}
    (used : ∀ reports, use reports = other reports)
    : left.withSource source use = right.withSource source other := by
  cases source with
  | ledger name =>
      obtain rfl := named name rfl
      simp only [withSource, agree.held, used]
  | reports names =>
      have same : left.reportsNamed names = right.reportsNamed names :=
        agree.reportsNamed_eq fun name member => read _ (List.mem_map_of_mem member)
      simp only [withSource, same, used]

/-- Sessions that agree on what a command keeps to judge it alike, by the cases of the command. -/
theorem judge_eq (agree : AgreeOn ledger handles left right)
    (keeps : command.KeepsTo ledger handles)
    : left.judge command = right.judge command := by
  obtain ⟨named, read⟩ := keeps
  have held := agree.held
  cases command with
  | setTracing flag | mint name draft | openView name shown | openCursor name shown numbered
  | resolve name asError asWarning =>
      rfl
  | within name report step | kindOf report | describe report | isOf report category =>
      exact Verdict.withBound_congr agree.reports (read _ (List.mem_singleton_self _))
        fun _ _ => rfl
  | add shown report =>
      obtain rfl := named shown rfl
      refine Verdict.withBound_congr agree.reports (read _ (List.mem_singleton_self _)) ?_
      intro found _
      simp only [nextId, held]
  | find shown id name | findChecked shown id name | size shown | reports shown | entries shown
  | kinds shown =>
      obtain rfl := named shown rfl
      simp only [judge, held]
  | emit carrier draft | abort carrier draft =>
      obtain rfl := named carrier.ledger rfl
      simp only [judge, nextId, held]
  | readView view =>
      refine Verdict.withBound_congr agree.views (read _ (List.mem_singleton_self _)) ?_
      rintro shown rfl
      simp only [held]
  | next name =>
      refine Verdict.withBound_congr agree.cursors (read _ (List.mem_singleton_self _)) ?_
      rintro cursor rfl
      simp only [held]
  | emitRejected shown policy site stack =>
      obtain rfl := named shown rfl
      refine Verdict.withBound_congr agree.policies (read _ (List.mem_singleton_self _)) ?_
      intro found _
      simp only [nextId, held]
  | severity report judging =>
      refine Verdict.withBound_congr agree.reports (read _ List.mem_cons_self) ?_
      intro found _
      exact agree.withOverrides_eq (fun _ member => read _ (List.mem_cons_of_mem _ member)) _
  | severities shown judging =>
      obtain rfl := named shown rfl
      simp only [judge, held]
      exact agree.withOverrides_eq read _
  | tally source judging | greatest source judging =>
      simp only [judge]
      refine agree.withSource_eq ?_ (fun _ member => read _ (List.mem_append_left _ member)) ?_
      · rintro name rfl
        exact named name rfl
      · intro reports
        exact agree.withOverrides_eq (fun _ member => read _ (List.mem_append_right _ member)) _

/-- Sessions that agree on what a command keeps to reply alike, but for the sizes of ledgers. -/
theorem step_reply (agree : AgreeOn ledger handles left right)
    (keeps : command.KeepsTo ledger handles)
    : (left.step command).2.outcome = (right.step command).2.outcome
      ∧ (left.step command).2.trace = (right.step command).2.trace := by
  have judged := agree.judge_eq keeps
  have next : command.ledger?.map left.nextId = command.ledger?.map right.nextId := by
    cases found : command.ledger? with
    | none => rfl
    | some name =>
        obtain rfl := keeps.named name found
        simp only [Option.map_some, nextId, agree.held]
  refine ⟨?_, ?_⟩
  · simp only [step, judged]
  · simp only [step, judged, events, next, agree.tracing]

-----------------------------------------------------------------------------------------
-- What keeps the agreement
-----------------------------------------------------------------------------------------

/-- A change that is made on both sides keeps the agreement, if it leads to the ledger. -/
theorem apply_both (agree : AgreeOn ledger handles left right) {change : Change}
    (leadsTo : change.LeadsTo ledger)
    : AgreeOn ledger handles (left.apply change) (right.apply change) := by
  cases change with
  | nothing => exact agree
  | tracing enabled => exact { agree with tracing := rfl }
  | report bound report =>
      exact { agree with reports := agree.reports.set_both bound trivial }
  | policy bound policy =>
      exact { agree with policies := agree.policies.set_both bound trivial }
  | view bound shown => exact { agree with views := agree.views.set_both bound leadsTo }
  | cursor bound cursor => exact { agree with cursors := agree.cursors.set_both bound leadsTo }

/-- A change that binds none of the handles keeps the agreement when one side alone makes it. -/
theorem apply_left (agree : AgreeOn ledger handles left right) {change : Change}
    (unbound : ∀ handle, change.handle? = some handle → ¬ handles handle)
    (untraced : ∀ enabled, change ≠ .tracing enabled)
    : AgreeOn ledger handles (left.apply change) right := by
  cases change with
  | nothing => exact agree
  | tracing enabled => exact absurd rfl (untraced enabled)
  | report bound report =>
      exact { agree with reports := agree.reports.set_left (unbound _ rfl) report }
  | policy bound policy =>
      exact { agree with policies := agree.policies.set_left (unbound _ rfl) policy }
  | view bound shown => exact { agree with views := agree.views.set_left (unbound _ rfl) shown }
  | cursor bound cursor =>
      exact { agree with cursors := agree.cursors.set_left (unbound _ rfl) cursor }

/-- Ledgers may change on both sides, if the ledger in question is alike again. -/
theorem of_ledgers (agree : AgreeOn ledger handles left right) (leftLedgers rightLedgers)
    (held
      : ({ left with ledgers := leftLedgers } : Session).ledger ledger
        = ({ right with ledgers := rightLedgers } : Session).ledger ledger)
    : AgreeOn ledger handles { left with ledgers := leftLedgers }
        { right with ledgers := rightLedgers } :=
  { agree with held }

end AgreeOn

/-- What a command leaves behind binds the handle that the command is to bind. -/
theorem Leaves.binds {session : Session} {change : Change} (leaves : session.Leaves command change)
    {handle : Handle} (bound : change.handle? = some handle)
    : command.binds? = some handle := by
  cases leaves <;> first | exact bound | cases bound

/-- Only the command for it sets the tracing flag. -/
theorem Leaves.traces {session : Session} {enabled : Bool}
    (leaves : session.Leaves command (.tracing enabled))
    : ∃ flag, command = .setTracing flag := by
  cases leaves
  exact ⟨_, rfl⟩

/-- A command that keeps to a ledger leaves no view and no cursor of another one behind. -/
theorem Leaves.leadsTo {change : Change} (leaves : left.Leaves command change)
    (agree : AgreeOn ledger handles left right) (keeps : command.KeepsTo ledger handles)
    : change.LeadsTo ledger := by
  cases leaves with
  | @viewed name shown => exact keeps.named shown rfl
  | @opened name shown numbered => exact keeps.named shown rfl
  | @advanced name cursor bound =>
      have read : handles (.cursor name) := keeps.read _ (List.mem_singleton_self _)
      exact (Cursor.advance_ledger cursor _).trans ((agree.cursors name read).2 cursor bound)
  | _ => trivial

namespace AgreeOn

/-- A command that both sessions take keeps the agreement on what it keeps to. -/
theorem step_both (agree : AgreeOn ledger handles left right)
    (keeps : command.KeepsTo ledger handles)
    : AgreeOn ledger handles (left.step command).1 (right.step command).1 := by
  have judged := agree.judge_eq keeps
  have leadsTo := (left.judge_leaves command).leadsTo agree keeps
  simp only [step, after, ← judged]
  rw [extend_eq left, extend_eq right]
  refine (agree.of_ledgers _ _ ?_).apply_both leadsTo
  rw [← extend_eq left, ← extend_eq right]
  cases found : command.ledger? with
  | none => exact agree.held
  | some name =>
      obtain rfl := keeps.named name found
      rw [ledger_extend_self, ledger_extend_self, agree.held]

/-- A command that one session takes alone keeps the agreement on what it keeps off. -/
theorem step_left (agree : AgreeOn ledger handles left right)
    (keeps : command.KeepsOff ledger handles)
    : AgreeOn ledger handles (left.step command).1 right := by
  have leaves := left.judge_leaves command
  simp only [step, after]
  rw [extend_eq left]
  refine (agree.of_ledgers _ right.ledgers ?_).apply_left ?_ ?_
  · rw [← extend_eq left, ledger_extend_of_ne left keeps.unnamed]
    exact agree.held
  · intro handle bound
    exact keeps.unbound handle (leaves.binds bound)
  · intro enabled same
    rw [same] at leaves
    obtain ⟨flag, sets⟩ := leaves.traces
    exact keeps.untraced flag sets

end AgreeOn

end Session

end CompilerReports
