/-! Bindings of names to values, in the order in which the names were first bound. Binding a name
again changes its value and leaves its place.
-/

namespace CompilerReports

structure Bindings (α : Type) where
  entries : List (String × α) := []

namespace Bindings

variable {α : Type}

def get? (bindings : Bindings α) (name : String) : Option α := bindings.entries.lookup name

/-- Entries with one name bound: in its place where it occurs, else at the end. -/
def put (entries : List (String × α)) (name : String) (value : α) : List (String × α) :=
  match entries with
  | [] => [(name, value)]
  | entry :: rest =>
      if name == entry.1 then (name, value) :: rest else entry :: put rest name value

def set (bindings : Bindings α) (name : String) (value : α) : Bindings α :=
  ⟨put bindings.entries name value⟩

/-- A name that was just bound has its new value, by induction on the entries. -/
theorem get?_set_self (bindings : Bindings α) (name : String) (value : α)
    : (bindings.set name value).get? name = some value := by
  simp only [get?, set]
  induction bindings.entries with
  | nil => simp [put]
  | cons entry rest ih =>
      obtain ⟨key, old⟩ := entry
      unfold put
      by_cases same : name = key
      · simp [same]
      · have unequal : (name == key) = false := beq_false_of_ne same
        simp only [unequal, Bool.false_eq_true, ↓reduceIte, List.lookup_cons]
        exact ih

/-- Binding one name leaves every other name as it was, by induction on the entries. -/
theorem get?_set_of_ne (bindings : Bindings α) {name other : String} (different : other ≠ name)
    (value : α)
    : (bindings.set name value).get? other = bindings.get? other := by
  simp only [get?, set]
  induction bindings.entries with
  | nil => simp [put, different]
  | cons entry rest ih =>
      obtain ⟨key, old⟩ := entry
      unfold put
      by_cases same : name = key
      · subst same
        have unequal : (other == name) = false := beq_false_of_ne different
        simp [List.lookup_cons, unequal]
      · have unequal : (name == key) = false := beq_false_of_ne same
        simp only [unequal, Bool.false_eq_true, ↓reduceIte, List.lookup_cons]
        split
        · rfl
        · exact ih

end Bindings

end CompilerReports
