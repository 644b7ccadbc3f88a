import CompilerReports.Fault
import CompilerReports.Frame
import CompilerReports.Instantiation

/-! Reports and the drafts they are minted from. A draft becomes a report when its payload's kind
belongs to the category it names; its site is the one it gives, or else the position that the
host's stack shows. The kind is looked at first, then the category that is named, and the stack
only when nothing else is wrong.
-/

namespace CompilerReports

-----------------------------------------------------------------------------------------
-- Payloads

/-- What a report says: its kind, and details that are carried unread. -/
structure Payload where
  kind : String
  details : List (String × Json)

namespace Payload

/-- The JSON form of a payload, all details included. -/
def toJson (payload : Payload) : Json :=
  .object (("kind", .text payload.kind) :: payload.details)

/-- Reads a payload: an object with the text of a kind. -/
def ofJson? (value : Json) : Option Payload := do
  let fields ← value.object?
  let kind ← value.textAt? "kind"
  return { kind, details := fields.filter fun field => field.1 != "kind" }

end Payload

-----------------------------------------------------------------------------------------
-- Reports

structure Report where
  category : Category
  payload : Payload
  /-- Where in the compiler the report was made. -/
  site : Point
  /-- Where in the user's source the condition was detected. -/
  location : Option LineInfo
  /-- The instantiation chain, oldest step first. -/
  context : List Instantiation

namespace Report

def kind (report : Report) : String := report.payload.kind

/-- (isOf report name) holds when the report's category has the given name. -/
def isOf (report : Report) (name : String) : Bool := report.category.name == name

/-- The report with an outer instantiation step in front of its chain. -/
def within (report : Report) (step : Instantiation) : Report :=
  { report with context := step :: report.context }

/-- The JSON form of a report; an absent location is left out. -/
def toJson (report : Report) : Json :=
  .object ([("category", .text report.category.name), ("payload", report.payload.toJson),
      ("site", report.site.toJson)]
    ++ (report.location.map fun info => ("location", info.toJson)).toList
    ++ [("context", .list (report.context.map Instantiation.toJson))])

end Report

-----------------------------------------------------------------------------------------
-- Drafts

/-- What a report is minted from. The stack is the text that the host shows as its own. -/
structure Draft where
  category : String
  payload : Payload
  site : Option Point := none
  location : Option LineInfo := none
  context : List Instantiation := []
  stack : Option String := none

namespace Draft

/-- The site that a draft gives, or the one that its stack shows. -/
def siteOrShown (draft : Draft) : Except Refusal Point :=
  match draft.site with
  | some site => .ok site
  | none =>
      match siteOf draft.stack with
      | .ok site => .ok site
      | .error error => .error (.url error)

def mint (draft : Draft) : Except Refusal Report :=
  match Category.accept draft.category draft.payload.kind with
  | .error refusal => .error refusal
  | .ok category =>
      match draft.siteOrShown with
      | .error refusal => .error refusal
      | .ok site => .ok {
          category
          payload := draft.payload
          site
          location := draft.location
          context := draft.context }

end Draft

/-- A draft as it is given: its positions and the steps of its chain are values still to be read.
-/
structure RawDraft where
  category : String
  payload : Payload
  site : Option Json := none
  location : Option Json := none
  context : List Json := []
  stack : Option String := none

/-- Reads the positions and the steps of a draft, each on its own. -/
def RawDraft.read? (raw : RawDraft) : Option Draft := do
  let site ← raw.site.mapM Point.ofJson?
  let location ← raw.location.mapM LineInfo.ofJson?
  let context ← raw.context.mapM Instantiation.ofJson?
  return {
    category := raw.category
    payload := raw.payload
    site
    location
    context
    stack := raw.stack }

end CompilerReports
