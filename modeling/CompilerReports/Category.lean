import CompilerReports.Kind.Lists

/-! The eight report categories. A category owns the run of kinds between its first and its last
kind in the flat order, and a kind belongs to it when the kind's place lies within that run. The
bounds of the runs are kept in a table under the names of the categories.
-/

namespace CompilerReports

/-- The phase or the side of the compiler that a report comes from. -/
inductive Category where
  | lexer
  | parser
  | semantic
  | command
  | debug
  | internal
  | backend
  | external
  deriving DecidableEq

namespace Category

/-- All categories, in the order in which they are searched. -/
def all : List Category :=
  [.lexer, .parser, .semantic, .command, .debug, .internal, .backend, .external]

def name : Category → String
  | .lexer => "lexer"
  | .parser => "parser"
  | .semantic => "sem"
  | .command => "cmd"
  | .debug => "debug"
  | .internal => "internal"
  | .backend => "backend"
  | .external => "external"

def ofName? (name : String) : Option Category := all.find? fun category => category.name == name

/-- The kinds of a category, in their order. -/
def kinds : Category → List String
  | .lexer => Kind.lexer
  | .parser => Kind.parser
  | .semantic => Kind.semantic
  | .command => Kind.command
  | .debug => Kind.debug
  | .internal => Kind.internal
  | .backend => Kind.backend
  | .external => Kind.external

theorem kinds_ne_nil (category : Category)
    : category.kinds ≠ [] := by
  cases category <;> decide

def firstKind (category : Category) : String := category.kinds.head category.kinds_ne_nil

def lastKind (category : Category) : String := category.kinds.getLast category.kinds_ne_nil

/-- (owns category kind) holds when the kind's place lies within the category's run, first and
last kind included. A name without a place belongs to no category.
-/
def owns (category : Category) (kind : String) : Bool :=
  match Kind.ordinal? kind, Kind.ordinal? category.firstKind,
    Kind.ordinal? category.lastKind with
  | some place, some first, some last => decide (first ≤ place) && decide (place ≤ last)
  | _, _, _ => false

def ofKind? (kind : String) : Option Category := all.find? fun category => category.owns kind

/-- What is found under a name in the table of the categories' bounds. -/
inductive Bounds where
  /-- The first and the last kind of a category, or the kinds that are given in their place. -/
  | listed (kinds : List String)
  /-- A member that every table inherits, in which there are no kinds. -/
  | inherited (name : String)
  deriving DecidableEq

/-- What a bound reads as where there is none. -/
def missingBound : String := "undefined"

/-- The bound at the given place, counted from zero. -/
def Bounds.text (bounds : Bounds) (place : Nat) : String :=
  match bounds with
  | .listed kinds => kinds[place]?.getD missingBound
  | .inherited _ => missingBound

/-- The names under which every table has a member, whatever it was made to hold. -/
def inheritedNames : List String :=
  ["constructor", "__proto__", "__defineGetter__", "__defineSetter__", "hasOwnProperty",
    "__lookupGetter__", "__lookupSetter__", "isPrototypeOf", "propertyIsEnumerable", "toString",
    "valueOf", "toLocaleString"]

/-- Looks a name up in the table of bounds. The table holds those of the categories, and finds what
it inherits under names that are none of theirs.
-/
def boundsUnder? (name : String) : Option Bounds :=
  match ofName? name with
  | some category => some (.listed [category.firstKind, category.lastKind])
  | none => if inheritedNames.contains name then some (.inherited name) else none

theorem mem_all (category : Category)
    : category ∈ all := by
  cases category <;> decide

/-- A category is found by its own name, by the eight cases. -/
theorem ofName?_name (category : Category)
    : ofName? category.name = some category := by
  cases category <;> decide

end Category

end CompilerReports
