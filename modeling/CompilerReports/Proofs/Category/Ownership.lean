import Mathlib.Data.List.Pairwise
import CompilerReports.Category

/-! Ownership by place is ownership by list. The flat order holds every kind once, and each
category's kinds are one unbroken run of it, so the kinds whose places lie between those of the
run's first and last kind are exactly the kinds of the category.
-/

namespace CompilerReports

-----------------------------------------------------------------------------------------
-- Places in the flat order
-----------------------------------------------------------------------------------------

namespace Kind

/-- No kind is listed twice, neither in one category nor in two. -/
theorem all_nodup
    : all.Nodup := by
  simp [all, internal, external, externalError, externalCommandLine, lexer, lexerError, parser,
    semantic, semanticError, semanticWarning, semanticHint, command, debug, backend,
    backendError, backendHint]

/-- The place of a kind is the one place where the flat order shows it. Witness: no place before
it shows the same kind, since the order holds every kind once.
-/
theorem ordinal?_eq_some_iff {kind : String} {place : Nat}
    : ordinal? kind = some place ↔ all[place]? = some kind := by
  rw [ordinal?, List.idxOf?_eq_some_iff]
  constructor
  · intro first
    obtain ⟨inside, shown, _⟩ := first
    exact List.getElem?_eq_some_iff.mpr ⟨inside, shown⟩
  · intro shown
    obtain ⟨inside, same⟩ := List.getElem?_eq_some_iff.mp shown
    refine ⟨inside, same, ?_⟩
    intro earlier before again
    have unequal := List.pairwise_iff_getElem.mp all_nodup earlier place
      (Nat.lt_trans before inside) inside before
    exact unequal (again.trans same.symm)

end Kind

-----------------------------------------------------------------------------------------
-- Runs of categories
-----------------------------------------------------------------------------------------

namespace Category

/-- The categories in the order in which their runs follow each other. -/
def byRun : List Category :=
  [.internal, .external, .lexer, .parser, .semantic, .command, .debug, .backend]

theorem mem_byRun (category : Category)
    : category ∈ byRun := by
  cases category <;> simp [byRun]

/-- The flat order is made of the categories' lists and nothing else. -/
theorem all_eq_flatMap_kinds
    : Kind.all = byRun.flatMap kinds := by
  simp only [Kind.all, byRun, kinds, List.flatMap_cons, List.flatMap_nil, List.append_nil,
    List.append_assoc]

/-- A category's kinds stand in the flat order without a gap. -/
theorem all_eq_append_kinds (category : Category)
    : ∃ before after, Kind.all = before ++ category.kinds ++ after := by
  obtain ⟨earlier, later, split⟩ := List.append_of_mem category.mem_byRun
  refine ⟨earlier.flatMap kinds, later.flatMap kinds, ?_⟩
  rw [all_eq_flatMap_kinds, split, List.flatMap_append, List.flatMap_cons, List.append_assoc]

/-- A category has an offset in the flat order from which its kinds have their places. Witness:
the number of kinds before its run.
-/
theorem kinds_getElem? (category : Category)
    : ∃ offset, ∀ index, index < category.kinds.length
        → Kind.all[offset + index]? = category.kinds[index]? := by
  obtain ⟨before, after, split⟩ := category.all_eq_append_kinds
  refine ⟨before.length, ?_⟩
  intro index inside
  have behind : before.length ≤ before.length + index := Nat.le_add_right ..
  rw [split, List.append_assoc, List.getElem?_append_right behind, Nat.add_sub_cancel_left,
    List.getElem?_append_left inside]

/-- A category owns exactly the kinds of its list. Witness: its first and its last kind have the
first and the last place of its run, and the places between them are those of its list.
-/
theorem owns_iff_mem_kinds {category : Category} {kind : String}
    : category.owns kind = true ↔ kind ∈ category.kinds := by
  obtain ⟨offset, places⟩ := category.kinds_getElem?
  have positive : 0 < category.kinds.length := List.length_pos_iff.mpr category.kinds_ne_nil
  have first : Kind.ordinal? category.firstKind = some offset := by
    rw [Kind.ordinal?_eq_some_iff, firstKind, ← List.head?_eq_some_head, List.head?_eq_getElem?]
    simpa using places 0 positive
  have last : Kind.ordinal? category.lastKind
      = some (offset + (category.kinds.length - 1)) := by
    rw [Kind.ordinal?_eq_some_iff, lastKind, ← List.getLast?_eq_some_getLast,
      List.getLast?_eq_getElem?]
    exact places _ (Nat.sub_lt positive Nat.one_pos)
  simp only [owns, first, last]
  constructor
  · intro owned
    cases found : Kind.ordinal? kind with
    | none => simp [found] at owned
    | some place =>
        simp only [found, Bool.and_eq_true, decide_eq_true_eq] at owned
        obtain ⟨index, rfl⟩ := Nat.exists_eq_add_of_le owned.1
        have inside : index < category.kinds.length := by omega
        apply List.mem_of_getElem? (i := index)
        rw [← places index inside]
        exact Kind.ordinal?_eq_some_iff.mp found
  · intro member
    obtain ⟨index, inside, shown⟩ := List.mem_iff_getElem.mp member
    have found : Kind.ordinal? kind = some (offset + index) := by
      rw [Kind.ordinal?_eq_some_iff, places index inside]
      exact List.getElem?_eq_some_iff.mpr ⟨inside, shown⟩
    simp only [found, Bool.and_eq_true, decide_eq_true_eq]
    omega

/-- A category goes by its own name only, by the eight cases. -/
theorem ofName?_eq_some_iff {name : String} {category : Category}
    : ofName? name = some category ↔ category.name = name := by
  constructor
  · intro found
    simpa using List.find?_some found
  · intro named
    rw [← named]
    exact category.ofName?_name

/-- Nothing is found by a name that no category goes by. -/
theorem ofName?_of_unnamed {name : String}
    (unnamed : ∀ category : Category, category.name ≠ name)
    : ofName? name = none := by
  cases found : ofName? name with
  | none => rfl
  | some category => exact absurd (ofName?_eq_some_iff.mp found) (unnamed category)

theorem name_injective {left right : Category} (same : left.name = right.name)
    : left = right := by
  have found := ofName?_eq_some_iff.mpr same
  rw [ofName?_name] at found
  exact (Option.some.inj found).symm

-----------------------------------------------------------------------------------------
-- The one category of a kind
-----------------------------------------------------------------------------------------

/-- No kind is listed by two categories. Witness: the flat order holds every kind once, so the
runs of two categories share none.
-/
theorem eq_of_mem_kinds {left right : Category} {kind : String} (inLeft : kind ∈ left.kinds)
    (inRight : kind ∈ right.kinds)
    : left = right := by
  have once : (byRun.flatMap kinds).Pairwise (· ≠ ·) := all_eq_flatMap_kinds ▸ Kind.all_nodup
  obtain ⟨_, apart⟩ := List.pairwise_flatMap.mp once
  have symmetric : Std.Symm fun one other : Category =>
      ∀ here ∈ one.kinds, ∀ there ∈ other.kinds, here ≠ there :=
    ⟨fun _ _ unequal there second here first same => unequal here first there second same.symm⟩
  by_cases same : left = right
  · exact same
  · exact absurd rfl
      (apart.forall left.mem_byRun right.mem_byRun same kind inLeft kind inRight)

/-- The category of a listed kind is the one that lists it. -/
theorem ofKind?_of_mem {category : Category} {kind : String} (listed : kind ∈ category.kinds)
    : ofKind? kind = some category := by
  cases found : ofKind? kind with
  | none =>
      have disowned := List.find?_eq_none.mp found category category.mem_all
      exact absurd (owns_iff_mem_kinds.mpr listed) disowned
  | some other =>
      have owned : other.owns kind = true := by simpa using List.find?_some found
      rw [eq_of_mem_kinds (owns_iff_mem_kinds.mp owned) listed]

/-- The known kinds are those that a category lists. -/
theorem isKnown_iff_exists_mem {kind : String}
    : Kind.isKnown kind = true ↔ ∃ category : Category, kind ∈ category.kinds := by
  rw [Kind.isKnown, List.contains_iff_mem, all_eq_flatMap_kinds, List.mem_flatMap]
  constructor
  · intro found
    obtain ⟨category, _, listed⟩ := found
    exact ⟨category, listed⟩
  · intro found
    obtain ⟨category, listed⟩ := found
    exact ⟨category, category.mem_byRun, listed⟩

/-- A kind that a category lists is a known kind. -/
theorem isKnown_of_mem {category : Category} {kind : String} (listed : kind ∈ category.kinds)
    : Kind.isKnown kind = true :=
  isKnown_iff_exists_mem.mpr ⟨category, listed⟩

end Category

end CompilerReports
