import CompilerReports.Proofs.Policy.Resolution

/-! A resolved policy accounts for every name it was given. A known name is among the kinds of its
switch, once and where it first occurred; every occurrence of any other name has a payload of its
own. What a sequence of names accepts is determined by these rules, so the policy of two inputs
one after the other, and the policy of a policy's own kinds, are found by uniqueness.
-/

namespace CompilerReports

/-- The names or kinds of a switch, out of those of each. -/
def Switch.pick (side : Switch) (asError asWarning : List String) : List String :=
  match side with
  | .asError => asError
  | .asWarning => asWarning

namespace Policy

-----------------------------------------------------------------------------------------
-- Accepted kinds
-----------------------------------------------------------------------------------------

/-- The kinds that names accept: the known ones among them, each once and in the order in which they
first occur.
-/
structure Accepts (names kinds : List String) : Prop where
  unique : kinds.Nodup
  known : ∀ kind, kind ∈ kinds ↔ kind ∈ names ∧ kind ∈ Kind.all
  ordered
    : kinds.Pairwise fun earlier later => names.idxOf earlier < names.idxOf later

/-- No kinds are accepted of no names. -/
theorem Accepts.nil
    : Accepts [] [] :=
  ⟨List.nodup_nil, by simp, List.Pairwise.nil⟩

/-- A single name is accepted if it is known. -/
theorem Accepts.single (name : String)
    : Accepts [name] (if Kind.isKnown name then [name] else []) := by
  by_cases known : Kind.isKnown name = true
  · have listed : name ∈ Kind.all := List.contains_iff_mem.mp known
    rw [if_pos known]
    refine ⟨List.pairwise_singleton _ _, ?_, List.pairwise_singleton _ _⟩
    intro kind
    rw [List.mem_singleton]
    exact ⟨fun same => ⟨same, same ▸ listed⟩, And.left⟩
  · have unlisted : name ∉ Kind.all := fun listed => known (List.contains_iff_mem.mpr listed)
    rw [if_neg known]
    refine ⟨List.nodup_nil, ?_, List.Pairwise.nil⟩
    intro kind
    rw [List.mem_singleton]
    constructor
    · intro member
      cases member
    · rintro ⟨rfl, listed⟩
      exact absurd listed unlisted

/-- Names determine the kinds that they accept: two such lists have the same members, and both stand
in the order of first occurrence.
-/
theorem Accepts.determined {names kinds others : List String} (left : Accepts names kinds)
    (right : Accepts names others)
    : kinds = others := by
  have members : kinds.Perm others := by
    rw [List.perm_ext_iff_of_nodup left.unique right.unique]
    exact fun kind => (left.known kind).trans (right.known kind).symm
  refine List.Perm.eq_of_pairwise ?_ left.ordered right.ordered members
  intro one other _ _ before after
  exact absurd before (Nat.lt_asymm after)

/-- The first-occurrence union: what further names accept is added behind, unless it is there. -/
def union (kinds more : List String) : List String :=
  kinds ++ more.filter fun kind => decide (kind ∉ kinds)

/-- Names in a row accept the first-occurrence union of what each part accepts. Witness: a kind that
only the later names accept does not occur among the earlier ones.
-/
theorem Accepts.append {names kinds later more : List String} (left : Accepts names kinds)
    (right : Accepts later more)
    : Accepts (names ++ later) (union kinds more) := by
  have further : ∀ {kind}, kind ∈ more.filter (fun kind => decide (kind ∉ kinds))
      ↔ kind ∈ more ∧ kind ∉ kinds := by
    simp
  have unseen : ∀ {kind}, kind ∈ more → kind ∉ kinds → kind ∉ names := by
    intro kind member fresh occurs
    exact fresh ((left.known kind).mpr ⟨occurs, ((right.known kind).mp member).2⟩)
  have seen : ∀ {kind}, kind ∈ kinds → kind ∈ names := fun member =>
    ((left.known _).mp member).1
  have ordered : (union kinds more).Pairwise
      fun earlier last => (names ++ later).idxOf earlier < (names ++ later).idxOf last := by
    refine List.pairwise_append.mpr ⟨?_, ?_, ?_⟩
    · refine left.ordered.imp_of_mem fun {one other} first second before => ?_
      rwa [List.idxOf_append, List.idxOf_append, if_pos (seen first), if_pos (seen second)]
    · refine (right.ordered.filter _).imp_of_mem fun {one other} first second before => ?_
      obtain ⟨first, freshFirst⟩ := further.mp first
      obtain ⟨second, freshSecond⟩ := further.mp second
      rw [List.idxOf_append, List.idxOf_append, if_neg (unseen first freshFirst),
        if_neg (unseen second freshSecond)]
      exact Nat.add_lt_add_right before _
    · intro one first other second
      obtain ⟨second, fresh⟩ := further.mp second
      rw [List.idxOf_append, List.idxOf_append, if_pos (seen first),
        if_neg (unseen second fresh)]
      exact Nat.lt_add_left _ (List.idxOf_lt_length_of_mem (seen first))
  refine ⟨ordered.imp fun before same => ?_, ?_, ordered⟩
  · exact Nat.lt_irrefl _ (same ▸ before)
  · intro kind
    rw [union, List.mem_append, further, List.mem_append, left.known, right.known]
    constructor
    · rintro (⟨occurs, listed⟩ | ⟨⟨occurs, listed⟩, _⟩)
      · exact ⟨Or.inl occurs, listed⟩
      · exact ⟨Or.inr occurs, listed⟩
    · rintro ⟨occurs | occurs, listed⟩
      · exact Or.inl ⟨occurs, listed⟩
      · by_cases already : kind ∈ names
        · exact Or.inl ⟨already, listed⟩
        · refine Or.inr ⟨⟨occurs, listed⟩, fun member => ?_⟩
          exact already (seen ((left.known kind).mpr member))

/-- Accepted kinds accept themselves: in a list without repetitions each member occurs first at its
own place.
-/
theorem Accepts.self {names kinds : List String} (accepted : Accepts names kinds)
    : Accepts kinds kinds := by
  refine ⟨accepted.unique, ?_, ?_⟩
  · intro kind
    exact ⟨fun member => ⟨member, ((accepted.known kind).mp member).2⟩, And.left⟩
  · rw [List.pairwise_iff_getElem]
    intro i j first second before
    rwa [accepted.unique.idxOf_getElem i first, accepted.unique.idxOf_getElem j second]

-----------------------------------------------------------------------------------------
-- One side under resolution
-----------------------------------------------------------------------------------------

/-- Taking one more name adds what the name alone accepts. -/
theorem Side.kinds_take (side : Side) (name : String)
    : (side.take name).kinds = union side.kinds (if Kind.isKnown name then [name] else []) := by
  unfold take union
  by_cases known : Kind.isKnown name = true
  · by_cases present : name ∈ side.kinds <;> simp [known, present]
  · simp [known]

/-- Names taken one after the other leave the kinds that they accept with the names before them, by
induction on the names.
-/
theorem Side.accepts_foldl_take {side : Side} {before : List String}
    (accepted : Accepts before side.kinds) (names : List String)
    : Accepts (before ++ names) (names.foldl Side.take side).kinds := by
  induction names generalizing side before with
  | nil => rwa [List.append_nil]
  | cons name rest ih =>
      have taken : Accepts (before ++ [name]) (side.take name).kinds :=
        side.kinds_take name ▸ accepted.append (.single name)
      rw [List.append_cons, List.foldl_cons]
      exact ih taken

theorem Side.accepts_ofNames (names : List String)
    : Accepts names (ofNames names).kinds :=
  have initial : Accepts [] ({} : Side).kinds := .nil
  accepts_foldl_take initial names

/-- The names among the given ones that are no kinds, one for each occurrence. -/
def unknown (names : List String) : List String :=
  names.filter fun name => decide (name ∉ Kind.all)

/-- Names taken one after the other are rejected for each occurrence that is no kind, by induction
on the names.
-/
theorem Side.rejected_foldl_take (side : Side) (names : List String)
    : (names.foldl Side.take side).rejected = side.rejected ++ unknown names := by
  induction names generalizing side with
  | nil => simp [unknown]
  | cons name rest ih =>
      rw [List.foldl_cons, ih]
      unfold take unknown
      by_cases known : name ∈ Kind.all
      · have isKnown : Kind.isKnown name = true := List.contains_iff_mem.mpr known
        by_cases present : name ∈ side.kinds <;> simp [isKnown, known, present]
      · have isUnknown : Kind.isKnown name = false := by simpa [Kind.isKnown] using known
        simp [isUnknown, known]

theorem Side.rejected_ofNames (names : List String)
    : (ofNames names).rejected = unknown names :=
  Side.rejected_foldl_take {} names

-----------------------------------------------------------------------------------------
-- What a policy says about a switch
-----------------------------------------------------------------------------------------

/-- The switch and the name that the payload about a rejected name shows. -/
def shown? (payload : Payload) : Option (Switch × String) := do
  let switchName ← payload.toJson.textAt? "cmdlineSwitch"
  let side ← [Switch.asError, .asWarning].find? fun side => side.name == switchName
  let name ← payload.toJson.textAt? "cmdlineProvided"
  return (side, name)

theorem shown?_rejection (side : Switch) (name : String)
    : shown? (rejection side name) = some (side, name) := by
  cases side <;> rfl

/-- The kinds of a policy for a switch. -/
def kindsOf (policy : Policy) (side : Switch) : List String :=
  side.pick policy.overrides.asError policy.overrides.asWarning

/-- The payloads of a policy that show a switch. -/
def rejectedBy (policy : Policy) (side : Switch) : List Payload :=
  policy.rejected.filter fun payload => decide ((shown? payload).map Prod.fst = some side)

/-- The names that a policy's payloads show for a switch. -/
def namesRejectedBy (policy : Policy) (side : Switch) : List String :=
  (policy.rejectedBy side).filterMap fun payload => (shown? payload).map Prod.snd

variable (asError asWarning : List String)

/-- Each side of a resolved policy has what its own switch was given. -/
theorem accepts_kindsOf_resolve (side : Switch)
    : Accepts (side.pick asError asWarning) ((resolve asError asWarning).kindsOf side) := by
  cases side with
  | asError => exact Side.accepts_ofNames asError
  | asWarning => exact Side.accepts_ofNames asWarning

theorem rejected_resolve
    : (resolve asError asWarning).rejected
      = (unknown asError).map (rejection .asError)
        ++ (unknown asWarning).map (rejection .asWarning) := by
  simp only [resolve, Side.rejected_ofNames]

/-- Rejections of one switch all show it, so a switch filters out all of them or none. -/
theorem filter_shown_rejections (side other : Switch) (names : List String)
    : (names.map (rejection other)).filter
        (fun payload => decide ((shown? payload).map Prod.fst = some side))
      = if other = side then names.map (rejection other) else [] := by
  have shows : ∀ payload ∈ names.map (rejection other),
      (shown? payload).map Prod.fst = some other := by
    intro payload member
    obtain ⟨name, _, rfl⟩ := List.mem_map.mp member
    rw [shown?_rejection]
    rfl
  by_cases same : other = side
  · rw [if_pos same, List.filter_eq_self]
    intro payload member
    exact decide_eq_true (same ▸ shows payload member)
  · rw [if_neg same, List.filter_eq_nil_iff]
    intro payload member shown
    exact same (Option.some.inj ((shows payload member).symm.trans (of_decide_eq_true shown)))

theorem rejectedBy_resolve (side : Switch)
    : (resolve asError asWarning).rejectedBy side
      = (unknown (side.pick asError asWarning)).map (rejection side) := by
  rw [rejectedBy, rejected_resolve, List.filter_append, filter_shown_rejections,
    filter_shown_rejections]
  cases side <;> simp [Switch.pick]

theorem namesRejectedBy_resolve (side : Switch)
    : (resolve asError asWarning).namesRejectedBy side
      = unknown (side.pick asError asWarning) := by
  have shows : (fun payload => (shown? payload).map Prod.snd) ∘ rejection side = some :=
    funext fun name => congrArg (Option.map Prod.snd) (shown?_rejection side name)
  rw [namesRejectedBy, rejectedBy_resolve, List.filterMap_map, shows, List.filterMap_some]

/-- Names are accepted, whatever the number of their occurrences, or rejected at each of them. -/
theorem Accepts.perm_unknown {names kinds : List String} (accepted : Accepts names kinds)
    : (names.filter (fun name => decide (name ∈ kinds)) ++ unknown names).Perm names := by
  have complement : unknown names = names.filter fun name => !decide (name ∈ kinds) := by
    refine List.filter_congr fun name member => ?_
    simp [accepted.known, member]
  rw [complement]
  exact List.filter_append_perm _ names

/-- Accepted kinds leave none to reject. -/
theorem Accepts.unknown_eq_nil {names kinds : List String} (accepted : Accepts names kinds)
    : unknown kinds = [] := by
  refine List.filter_eq_nil_iff.mpr fun kind member rejected => ?_
  exact of_decide_eq_true rejected ((accepted.known kind).mp member).2

/-- A policy is known by the kinds of both switches and by what it rejects. -/
theorem eq_of_kindsOf {left right : Policy}
    (kinds : ∀ side, left.kindsOf side = right.kindsOf side)
    (rejected : left.rejected = right.rejected)
    : left = right := by
  obtain ⟨⟨leftErrors, leftWarnings⟩, leftRejected⟩ := left
  obtain ⟨⟨rightErrors, rightWarnings⟩, rightRejected⟩ := right
  obtain rfl : leftErrors = rightErrors := kinds .asError
  obtain rfl : leftWarnings = rightWarnings := kinds .asWarning
  obtain rfl : leftRejected = rightRejected := rejected
  rfl

-----------------------------------------------------------------------------------------
-- Every name is accounted for
-----------------------------------------------------------------------------------------

/-- What a policy does with the names given to each switch. -/
structure AccountsFor (policy : Policy) (asError asWarning : List String) : Prop where
  /-- The kinds of a switch are its known names. -/
  accepted : ∀ side, Accepts (side.pick asError asWarning) (policy.kindsOf side)
  /-- Every other occurrence has its payload, those of the first switch before the others. -/
  rejected
    : policy.rejected
      = (unknown asError).map (rejection .asError)
        ++ (unknown asWarning).map (rejection .asWarning)
  /-- The payloads show the switch and the name, in the same order. -/
  shown
    : policy.rejected.map shown?
      = (unknown asError).map (fun name => some (.asError, name))
        ++ (unknown asWarning).map (fun name => some (.asWarning, name))
  /-- The names of a switch are the occurrences of its kinds and the names it rejects. -/
  complete
    : ∀ side,
        let given := side.pick asError asWarning
        (given.filter (fun name => decide (name ∈ policy.kindsOf side))
            ++ policy.namesRejectedBy side).Perm
          given

theorem accountsFor_resolve
    : (resolve asError asWarning).AccountsFor asError asWarning where
  accepted := accepts_kindsOf_resolve asError asWarning
  rejected := rejected_resolve asError asWarning
  shown := by
    simp [rejected_resolve, Function.comp_def, shown?_rejection]
  complete := by
    intro side given
    rw [namesRejectedBy_resolve]
    exact (accepts_kindsOf_resolve asError asWarning side).perm_unknown

/-- A resolved policy accounts for every name. Its kinds are the known names of each switch, without
repetitions and in the order of first occurrence, and each other occurrence has a payload of its
own that shows its switch and its name, so that together they are the names given. Names in a row
have the first-occurrence union of the kinds and the rejections one after the other, switch by
switch. And a policy resolved from the kinds of a policy is that policy with nothing rejected.
-/
theorem resolve_accounts_for_names
    : (resolve asError asWarning).AccountsFor asError asWarning
      ∧ (∀ moreErrors moreWarnings side,
          let policy := resolve asError asWarning
          let more := resolve moreErrors moreWarnings
          let joined := resolve (asError ++ moreErrors) (asWarning ++ moreWarnings)
          joined.kindsOf side = union (policy.kindsOf side) (more.kindsOf side)
          ∧ joined.rejectedBy side = policy.rejectedBy side ++ more.rejectedBy side)
      ∧ let overrides := (resolve asError asWarning).overrides
        resolve overrides.asError overrides.asWarning = { overrides, rejected := [] } := by
  have accepted := accepts_kindsOf_resolve asError asWarning
  refine ⟨accountsFor_resolve asError asWarning, ?_, ?_⟩
  · intro moreErrors moreWarnings side policy more joined
    have split : side.pick (asError ++ moreErrors) (asWarning ++ moreWarnings)
        = side.pick asError asWarning ++ side.pick moreErrors moreWarnings := by
      cases side <;> rfl
    constructor
    · have whole := accepts_kindsOf_resolve (asError ++ moreErrors) (asWarning ++ moreWarnings) side
      rw [split] at whole
      exact whole.determined
        ((accepted side).append (accepts_kindsOf_resolve moreErrors moreWarnings side))
    · simp only [joined, policy, more, rejectedBy_resolve, split, unknown, List.filter_append,
        List.map_append]
  · intro overrides
    refine eq_of_kindsOf (fun side => ?_) ?_
    · exact (accepts_kindsOf_resolve _ _ side).determined (accepted side).self
    · have errors : unknown overrides.asError = [] := (accepted .asError).unknown_eq_nil
      have warnings : unknown overrides.asWarning = [] := (accepted .asWarning).unknown_eq_nil
      rw [rejected_resolve, errors, warnings]
      rfl

end Policy

end CompilerReports
