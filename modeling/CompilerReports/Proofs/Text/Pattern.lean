/-! Patterns over texts that are tried in an order. A pattern lists all of its matches at the start
of a text, the one it would take first in front, so that a search which backtracks is a search
through the list: the first match of a sequence is the first for which the rest matches too.
-/

namespace CompilerReports.Text

-----------------------------------------------------------------------------------------
-- Runs
-----------------------------------------------------------------------------------------

/-- The ways to take a run of wanted characters off the front of a text, shortest first. -/
def runs (wanted : Char → Bool) : List Char → List (List Char × List Char)
  | [] => [([], [])]
  | c :: rest =>
      ([], c :: rest) ::
        if wanted c then (runs wanted rest).map fun (run, left) => (c :: run, left) else []

theorem nil_mem_runs_iff {wanted : Char → Bool} {text left : List Char}
    : ([], left) ∈ runs wanted text ↔ text = left := by
  cases text with
  | nil =>
      simp only [runs, List.mem_singleton, Prod.mk.injEq, true_and]
      exact eq_comm
  | cons c rest =>
      simp only [runs, List.mem_cons, Prod.mk.injEq, true_and]
      constructor
      · intro either
        rcases either with same | member
        · exact same.symm
        · split at member
          · simp at member
          · cases member
      · exact fun same => Or.inl same.symm

theorem cons_mem_runs_iff {wanted : Char → Bool} {c d : Char} {rest more left : List Char}
    : (d :: more, left) ∈ runs wanted (c :: rest)
      ↔ c = d ∧ wanted c = true ∧ (more, left) ∈ runs wanted rest := by
  by_cases here : wanted c = true
  · simp only [runs, here, ↓reduceIte, List.mem_cons, Prod.mk.injEq, reduceCtorEq, false_and,
      false_or, List.mem_map, Prod.exists, List.cons.injEq, true_and]
    constructor
    · intro listed
      obtain ⟨_, _, member, ⟨rfl, rfl⟩, rfl⟩ := listed
      exact ⟨rfl, member⟩
    · intro listed
      obtain ⟨rfl, member⟩ := listed
      exact ⟨more, left, member, ⟨rfl, rfl⟩, rfl⟩
  · simp [runs, here]

theorem mem_runs_iff {wanted : Char → Bool} {text run left : List Char}
    : (run, left) ∈ runs wanted text
      ↔ text = run ++ left ∧ ∀ c ∈ run, wanted c = true := by
  induction run generalizing text with
  | nil => simp [nil_mem_runs_iff]
  | cons d more ih =>
      cases text with
      | nil => simp [runs]
      | cons c rest =>
          rw [cons_mem_runs_iff, ih]
          constructor
          · intro listed
            obtain ⟨rfl, here, rfl, later⟩ := listed
            exact ⟨rfl, List.forall_mem_cons.mpr ⟨here, later⟩⟩
          · intro parts
            obtain ⟨same, all⟩ := parts
            obtain ⟨rfl, rfl⟩ := List.cons.inj same
            obtain ⟨here, later⟩ := List.forall_mem_cons.mp all
            exact ⟨rfl, here, rfl, later⟩

theorem runs_ascending (wanted : Char → Bool) (text : List Char)
    : (runs wanted text).Pairwise fun first second => first.1.length < second.1.length := by
  induction text with
  | nil => exact List.pairwise_singleton _ _
  | cons c rest ih =>
      by_cases here : wanted c = true
      · simp only [runs, here, ↓reduceIte, List.pairwise_cons, List.pairwise_map,
          List.mem_map]
        constructor
        · rintro _ ⟨_, _, rfl⟩
          exact Nat.zero_lt_succ _
        · exact ih.imp Nat.succ_lt_succ
      · simp [runs, here]

-----------------------------------------------------------------------------------------
-- Patterns
-----------------------------------------------------------------------------------------

/-- The matches at the start of a text, the preferred one first. A match is what is found and the
text that is left behind it.
-/
def Pattern (α : Type) : Type := List Char → List (α × List Char)

namespace Pattern

variable {α β : Type}

/-- Patterns in sequence: the later pattern is tried behind every match of the earlier one. -/
instance : Monad Pattern where
  pure found := fun text => [(found, text)]
  bind pattern next := fun text => (pattern text).flatMap fun (found, left) => next found left

instance : LawfulMonad Pattern := LawfulMonad.mk' Pattern
  (fun pattern => by
    funext text
    exact List.flatMap_singleton' (pattern text))
  (fun found next => by
    funext text
    exact List.flatMap_singleton ..)
  (fun pattern next last => by
    funext text
    exact List.flatMap_assoc)

def exactly (word : List Char) : Pattern Unit := fun text =>
  if word.isPrefixOf text then [((), text.drop word.length)] else []

/-- A run of wanted characters, as long as can be. -/
def longest (wanted : Char → Bool) : Pattern (List Char) := fun text =>
  (runs wanted text).reverse

/-- A run of at least one wanted character, as long as can be. -/
def longestSome (wanted : Char → Bool) : Pattern (List Char) := fun text =>
  ((runs wanted text).filter fun found => !found.1.isEmpty).reverse

/-- A run of at least one wanted character, as short as can be. -/
def shortestSome (wanted : Char → Bool) : Pattern (List Char) := fun text =>
  (runs wanted text).filter fun found => !found.1.isEmpty

/-- A pattern or, where that does not lead to a match, nothing in its place. -/
def optional (pattern : Pattern α) : Pattern (Option α) := fun text =>
  (pattern text).map (fun (found, left) => (some found, left)) ++ [(none, text)]

def ending : Pattern Unit := fun text => if text.isEmpty then [((), [])] else []

/-- What the preferred match of a pattern finds at the start of a text. -/
def first (pattern : Pattern α) (text : List Char) : Option α :=
  (pattern text).head?.map Prod.fst

-----------------------------------------------------------------------------------------
-- What matches
-----------------------------------------------------------------------------------------

variable {text left : List Char}

theorem mem_pure_iff {found given : α}
    : (found, left) ∈ (pure given : Pattern α) text ↔ found = given ∧ left = text := by
  simp [pure]

theorem mem_bind_iff {pattern : Pattern α} {next : α → Pattern β} {found : β}
    : (found, left) ∈ (pattern >>= next : Pattern β) text
      ↔ ∃ earlier between,
          (earlier, between) ∈ pattern text ∧ (found, left) ∈ next earlier between := by
  simp [bind]

theorem mem_exactly_iff {word : List Char} {found : Unit}
    : (found, left) ∈ exactly word text ↔ text = word ++ left := by
  simp only [exactly]
  split
  case isTrue starts =>
    obtain ⟨rest, rfl⟩ := List.isPrefixOf_iff_prefix.mp starts
    simp [eq_comm]
  case isFalse other =>
    simp only [List.not_mem_nil, false_iff]
    rintro rfl
    exact other (List.isPrefixOf_iff_prefix.mpr (List.prefix_append ..))

theorem mem_longest_iff {wanted : Char → Bool} {run : List Char}
    : (run, left) ∈ longest wanted text
      ↔ text = run ++ left ∧ ∀ c ∈ run, wanted c = true := by
  rw [longest, List.mem_reverse, mem_runs_iff]

theorem mem_shortestSome_iff {wanted : Char → Bool} {run : List Char}
    : (run, left) ∈ shortestSome wanted text
      ↔ text = run ++ left ∧ run ≠ [] ∧ ∀ c ∈ run, wanted c = true := by
  rw [shortestSome, List.mem_filter, mem_runs_iff]
  simp only [Bool.not_eq_true', List.isEmpty_eq_false_iff, and_assoc]
  exact and_congr_right fun _ => and_comm

theorem mem_longestSome_iff {wanted : Char → Bool} {run : List Char}
    : (run, left) ∈ longestSome wanted text
      ↔ text = run ++ left ∧ run ≠ [] ∧ ∀ c ∈ run, wanted c = true := by
  rw [← mem_shortestSome_iff, longestSome, List.mem_reverse]
  rfl

theorem mem_optional_iff {pattern : Pattern α} {found : Option α}
    : (found, left) ∈ optional pattern text
      ↔ (∃ given, found = some given ∧ (given, left) ∈ pattern text)
        ∨ found = none ∧ left = text := by
  cases found <;> simp [optional]

theorem mem_ending_iff {found : Unit}
    : (found, left) ∈ ending text ↔ text = [] ∧ left = [] := by
  cases text <;> simp [ending]

-----------------------------------------------------------------------------------------
-- What is found first
-----------------------------------------------------------------------------------------

theorem exists_mem_of_first {pattern : Pattern α} {found : α}
    (preferred : pattern.first text = some found)
    : ∃ left, (found, left) ∈ pattern text := by
  obtain ⟨⟨_, left⟩, head, rfl⟩ := Option.map_eq_some_iff.mp preferred
  exact ⟨left, List.mem_of_head? head⟩

theorem first_eq_none_iff {pattern : Pattern α}
    : pattern.first text = none ↔ pattern text = [] := by
  simp [first]

/-- Where every match finds the same, that is found first. -/
theorem first_of_only {pattern : Pattern α} {found : α} (member : (found, left) ∈ pattern text)
    (only : ∀ other left, (other, left) ∈ pattern text → other = found)
    : pattern.first text = some found := by
  cases preferred : pattern.first text with
  | none =>
      rw [first_eq_none_iff.mp preferred] at member
      cases member
  | some other =>
      obtain ⟨left, member⟩ := exists_mem_of_first preferred
      rw [only other left member]

theorem first_bind (pattern : Pattern α) (next : α → Pattern β) (text : List Char)
    : (pattern >>= next).first text
      = (pattern text).findSome? fun found => (next found.1).first found.2 := by
  simp only [first, bind, List.head?_flatMap, List.map_findSome?]
  rfl

/-- A sequence that matches goes on behind some match of its first pattern. -/
theorem exists_of_first_bind {pattern : Pattern α} {next : α → Pattern β}
    (goesOn : (pattern >>= next).first text ≠ none)
    : ∃ found left, (found, left) ∈ pattern text ∧ (next found).first left ≠ none := by
  obtain ⟨result, found⟩ := Option.ne_none_iff_exists'.mp goesOn
  rw [first_bind] at found
  obtain ⟨⟨earlier, left⟩, member, leads⟩ := List.exists_of_findSome?_eq_some found
  exact ⟨earlier, left, member, by simp [leads]⟩

/-- A sequence goes on behind the one match of its first pattern that leads on. -/
theorem first_bind_of_only {pattern : Pattern α} {next : α → Pattern β} {earlier : α} {found : β}
    (member : (earlier, left) ∈ pattern text) (goesOn : (next earlier).first left = some found)
    (only
      : ∀ other between,
          (other, between) ∈ pattern text
          → (next other).first between ≠ none
          → other = earlier ∧ between = left)
    : (pattern >>= next).first text = some found := by
  rw [first_bind]
  cases result : (pattern text).findSome? fun found => (next found.1).first found.2 with
  | none =>
      have stopped := List.findSome?_eq_none_iff.mp result _ member
      exact stopped.symm.trans goesOn
  | some other =>
      obtain ⟨⟨taken, between⟩, listed, leads⟩ := List.exists_of_findSome?_eq_some result
      obtain ⟨rfl, rfl⟩ := only taken between listed (by simp [leads])
      exact leads.symm.trans goesOn

theorem first_exactly_bind (word left : List Char) (next : Unit → Pattern β)
    : (exactly word >>= next).first (word ++ left) = (next ()).first left := by
  have starts : word.isPrefixOf (word ++ left) = true :=
    List.isPrefixOf_iff_prefix.mpr (List.prefix_append ..)
  rw [first_bind, exactly, if_pos starts, List.drop_left, List.findSome?_singleton]

/-- A run that leads on is preferred to the longer ones, so only the shorter ones can come before
it.
-/
theorem first_shortestSome_bind {wanted : Char → Bool} {next : List Char → Pattern β}
    {run : List Char} {found : β} (member : (run, left) ∈ shortestSome wanted text)
    (goesOn : (next run).first left = some found)
    (least
      : ∀ shorter between,
          (shorter, between) ∈ shortestSome wanted text
          → shorter.length < run.length
          → (next shorter).first between = none)
    : (shortestSome wanted >>= next).first text = some found := by
  have ascending := (runs_ascending wanted text).filter fun found => !found.1.isEmpty
  obtain ⟨before, after, parted⟩ := List.append_of_mem member
  rw [first_bind, parted, List.findSome?_append, List.findSome?_cons, goesOn]
  have stopped : before.findSome? (fun found => (next found.1).first found.2) = none := by
    refine List.findSome?_eq_none_iff.mpr ?_
    rintro ⟨shorter, between⟩ inFront
    refine least shorter between ?_ ?_
    · rw [parted]
      exact List.mem_append_left _ inFront
    · change (shortestSome wanted text).Pairwise _ at ascending
      rw [parted] at ascending
      exact (List.pairwise_append.mp ascending).2.2 _ inFront _ List.mem_cons_self
  rw [stopped]
  rfl

/-- What is optional is left out only where it leads to no match. -/
theorem first_optional_bind (pattern : Pattern α) (next : Option α → Pattern β)
    (text : List Char)
    : (optional pattern >>= next).first text
      = ((pattern >>= fun found => next (some found)).first text).or
          ((next none).first text) := by
  rw [first_bind, first_bind, optional, List.findSome?_append, List.findSome?_map,
    List.findSome?_singleton]
  rfl

end Pattern

end CompilerReports.Text
