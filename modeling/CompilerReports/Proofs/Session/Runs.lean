import CompilerReports.Session.Step

/-! Runs of sessions as prefixes and suffixes: a run of joined commands is the run of the first
part and, from the session it ends in, the run of the second. What holds of the empty session
and is kept by every command holds of every session that a run can reach.
-/

namespace CompilerReports.Session

/-- The session that commands end in. -/
def finish (session : Session) (commands : List Command) : Session := (session.run commands).1

/-- What a session replies to commands, in their order. -/
def replies (session : Session) (commands : List Command) : List Reply := (session.run commands).2

@[simp]
theorem finish_nil (session : Session)
    : session.finish [] = session := by
  rfl

@[simp]
theorem finish_cons (session : Session) (command : Command) (rest : List Command)
    : session.finish (command :: rest) = (session.step command).1.finish rest := by
  rfl

@[simp]
theorem replies_nil (session : Session)
    : session.replies [] = [] := by
  rfl

@[simp]
theorem replies_cons (session : Session) (command : Command) (rest : List Command)
    : session.replies (command :: rest)
      = (session.step command).2 :: (session.step command).1.replies rest := by
  rfl

/-- Running joined commands is running one part after the other, by induction on the first
part.
-/
theorem finish_append (session : Session) (before after : List Command)
    : session.finish (before ++ after) = (session.finish before).finish after := by
  induction before generalizing session with
  | nil => rfl
  | cons command rest ih => exact ih (session.step command).1

@[simp]
theorem step_outcome (session : Session) (command : Command)
    : (session.step command).2.outcome = (session.judge command).outcome := by
  rfl

/-- A session is reachable when some commands lead from the empty session to it. -/
def Reachable (session : Session) : Prop := ∃ commands, finish {} commands = session

theorem reachable_empty
    : Reachable {} :=
  ⟨[], rfl⟩

theorem Reachable.finish {session : Session} (reachable : session.Reachable)
    (commands : List Command)
    : (session.finish commands).Reachable := by
  obtain ⟨before, rfl⟩ := reachable
  exact ⟨before ++ commands, finish_append {} before commands⟩

/-- What every command keeps survives a run, by induction on the commands. -/
theorem finish_keeps {holds : Session → Prop}
    (kept : ∀ session command, holds session → holds (session.step command).1)
    {session : Session} (initially : holds session) (commands : List Command)
    : holds (session.finish commands) := by
  induction commands generalizing session with
  | nil => exact initially
  | cons command rest ih => exact ih (kept session command initially)

/-- What holds of the empty session and is kept by every command holds of every reachable
session.
-/
theorem Reachable.keeps {holds : Session → Prop} (initially : holds {})
    (kept : ∀ session command, holds session → holds (session.step command).1)
    {session : Session} (reachable : session.Reachable)
    : holds session := by
  obtain ⟨commands, rfl⟩ := reachable
  exact finish_keeps kept initially commands

end CompilerReports.Session
