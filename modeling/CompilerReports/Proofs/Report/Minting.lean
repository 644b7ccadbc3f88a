import CompilerReports.Proofs.Category.Ownership
import CompilerReports.Report

/-! Minting in order of precedence: whether the kind is known, whether the category that is named
lists it, and only then the site. What comes of a draft can be told from the draft's fields and the
frames of its stack; for a kind that is refused it turns on what the table of bounds has under the
name.
-/

namespace CompilerReports

-----------------------------------------------------------------------------------------
-- The gate
-----------------------------------------------------------------------------------------

namespace Category

/-- A category accepts its own kinds under its own name. -/
theorem accept_of_mem {category : Category} {kind : String} (member : kind ∈ category.kinds)
    : accept category.name kind = .ok category := by
  have owning : owning? category.name kind = .ok (some category) := by
    simp only [owning?, isKnown_of_mem member, ofName?_name, owns_iff_mem_kinds.mpr member,
      ↓reduceIte]
  rw [accept, owning]

/-- A kind that the named category does not own is refused by what the table of bounds has. -/
theorem accept_of_disowned {name kind : String} (disowned : owning? name kind = .ok none)
    : accept name kind = .error (outside name kind) := by
  rw [accept, disowned]

/-- A category refuses any other kind with its fault, be it known elsewhere or nowhere. -/
theorem accept_of_not_mem {category : Category} {kind : String}
    (outside : kind ∉ category.kinds)
    : accept category.name kind
      = .error (.fault
          (.kindOutsideCategory category.name kind
            (.listed [category.firstKind, category.lastKind]))) := by
  have notOwned : ¬ category.owns kind = true := fun owned =>
    outside (owns_iff_mem_kinds.mp owned)
  have disowned : owning? category.name kind = .ok none := by
    simp only [owning?, ofName?_name, if_neg notOwned, ite_self]
  rw [accept_of_disowned disowned]
  simp only [Category.outside, boundsUnder?, ofName?_name]

/-- (IsStray name kind) holds when no category lists the kind, and the name is one under which every
table has a member.
-/
structure IsStray (name kind : String) : Prop where
  unlisted : ∀ category : Category, kind ∉ category.kinds
  inherited : name ∈ inheritedNames

/-- Under the name of an inherited member, an unknown kind is refused with a fault without bounds.
-/
theorem accept_of_isStray {name kind : String}
    (unnamed : ∀ category : Category, category.name ≠ name) (stray : IsStray name kind)
    : accept name kind = .error (.fault (.kindOutsideCategory name kind (.inherited name))) := by
  have unknown : ¬ Kind.isKnown kind = true := by
    intro known
    obtain ⟨category, listed⟩ := isKnown_iff_exists_mem.mp known
    exact stray.unlisted category listed
  have found : inheritedNames.contains name = true := List.contains_iff_mem.mpr stray.inherited
  rw [accept_of_disowned (if_neg unknown)]
  simp only [outside, boundsUnder?, ofName?_of_unnamed unnamed, found, ↓reduceIte]

/-- Any other name of no category is refused without a fault: a known kind needs the bounds for its
comparison, and an unknown one for its fault.
-/
theorem accept_of_not_isStray {name kind : String}
    (unnamed : ∀ category : Category, category.name ≠ name) (regular : ¬ IsStray name kind)
    : accept name kind = .error (.noCategory name) := by
  have absent := ofName?_of_unnamed unnamed
  by_cases known : Kind.isKnown kind = true
  · have owning : owning? name kind = .error (.noCategory name) := by
      simp only [owning?, known, absent, ↓reduceIte]
    rw [accept, owning]
  · have notFound : ¬ inheritedNames.contains name = true := by
      intro found
      refine regular ⟨fun category listed => ?_, List.contains_iff_mem.mp found⟩
      exact known (isKnown_of_mem listed)
    rw [accept_of_disowned (if_neg known)]
    simp only [outside, boundsUnder?, absent, if_neg notFound]

end Category

-----------------------------------------------------------------------------------------
-- The site
-----------------------------------------------------------------------------------------

/-- The site that the frames of a stack show: the point of the first one, or the unknown point. -/
def Frame.firstPoint (frames : List Frame) : Point := (frames.head?.map point).getD .unknown

/-- The site of a stack is the one that its frames show, once they can all be read. -/
theorem siteOf_of_framesOf {stack : Option String} {frames : List Frame}
    (read : framesOf (stack.getD "") = .ok frames)
    : siteOf stack = .ok (Frame.firstPoint frames) := by
  rw [siteOf, read]
  rfl

/-- A stack with a frame that cannot be read has no site, although only the first frame counts. -/
theorem siteOf_of_error {stack : Option String} {cause : FileUrl.Error}
    (bad : framesOf (stack.getD "") = .error cause)
    : siteOf stack = .error cause := by
  rw [siteOf, bad]
  rfl

-----------------------------------------------------------------------------------------
-- What comes of a draft
-----------------------------------------------------------------------------------------

namespace Draft

/-- The report of a draft under the given category and at the given site. -/
def reportAt (draft : Draft) (category : Category) (site : Point) : Report where
  category
  payload := draft.payload
  site
  location := draft.location
  context := draft.context

/-- The frames of the stack that the host shows; without a text there are none. -/
def frames (draft : Draft) : Except FileUrl.Error (List Frame) :=
  framesOf (draft.stack.getD "")

/-- (draft.FitsIn category) holds when the draft names the category and the category lists the
draft's kind.
-/
structure FitsIn (draft : Draft) (category : Category) : Prop where
  named : category.name = draft.category
  listed : draft.payload.kind ∈ category.kinds

/-- Past the gate, minting turns on the site alone. -/
theorem mint_of_fitsIn {draft : Draft} {category : Category} (fits : draft.FitsIn category)
    : draft.mint = draft.siteOrShown.map (draft.reportAt category) := by
  rw [mint, ← fits.named, Category.accept_of_mem fits.listed]
  cases draft.siteOrShown <;> rfl

/-- A draft whose gate is refused is refused for that reason, whatever its site and its stack. -/
theorem mint_of_refused {draft : Draft} {refusal : Refusal}
    (refused : Category.accept draft.category draft.payload.kind = .error refusal)
    : draft.mint = .error refusal := by
  rw [mint, refused]

/-- A given site is used as it is, and the stack is not looked at. -/
theorem siteOrShown_of_given {draft : Draft} {site : Point} (given : draft.site = some site)
    : draft.siteOrShown = .ok site := by
  rw [siteOrShown, given]

/-- Without a given site, frames that can be read show the site. -/
theorem siteOrShown_of_frames {draft : Draft} {frames : List Frame} (absent : draft.site = none)
    (read : draft.frames = .ok frames)
    : draft.siteOrShown = .ok (Frame.firstPoint frames) := by
  rw [siteOrShown, absent]
  simp only [siteOf_of_framesOf read]

/-- Without a given site, a frame that cannot be read refuses the site with its cause. -/
theorem siteOrShown_of_error {draft : Draft} {cause : FileUrl.Error} (absent : draft.site = none)
    (bad : draft.frames = .error cause)
    : draft.siteOrShown = .error (.url cause) := by
  rw [siteOrShown, absent]
  simp only [siteOf_of_error bad]

/-- A draft passes the gate, or the gate refuses it for a reason other than a file URL. -/
theorem fitsIn_or_refused (draft : Draft)
    : (∃ category, draft.FitsIn category)
      ∨ ∃ refusal, draft.mint = .error refusal
          ∧ (∀ category, ¬ draft.FitsIn category) ∧ ∀ cause, refusal ≠ .url cause := by
  by_cases known : ∃ category : Category, category.name = draft.category
  · obtain ⟨category, named⟩ := known
    by_cases listed : draft.payload.kind ∈ category.kinds
    · exact Or.inl ⟨category, named, listed⟩
    · have refused := mint_of_refused (named ▸ Category.accept_of_not_mem listed)
      refine Or.inr ⟨_, refused, ?_, nofun⟩
      intro other fits
      have same : other = category := Category.name_injective (fits.named.trans named.symm)
      exact listed (same ▸ fits.listed)
  · have unnamed : ∀ category : Category, category.name ≠ draft.category :=
      fun category named => known ⟨category, named⟩
    have unfit : ∀ category, ¬ draft.FitsIn category :=
      fun category fits => unnamed category fits.named
    by_cases stray : Category.IsStray draft.category draft.payload.kind
    · have refused := mint_of_refused (Category.accept_of_isStray unnamed stray)
      exact Or.inr ⟨_, refused, unfit, nofun⟩
    · have refused := mint_of_refused (Category.accept_of_not_isStray unnamed stray)
      exact Or.inr ⟨_, refused, unfit, nofun⟩

/-- Past the gate there are three ends: the given site, the shown site, or the cause for which the
stack shows none.
-/
theorem mint_cases_of_fitsIn {draft : Draft} {category : Category} (fits : draft.FitsIn category)
    : (∃ site, draft.site = some site ∧ draft.mint = .ok (draft.reportAt category site))
      ∨ (∃ frames, draft.site = none ∧ draft.frames = .ok frames
          ∧ draft.mint = .ok (draft.reportAt category (Frame.firstPoint frames)))
      ∨ ∃ cause, draft.site = none ∧ draft.frames = .error cause
          ∧ draft.mint = .error (.url cause) := by
  cases given : draft.site with
  | some site =>
      refine Or.inl ⟨site, rfl, ?_⟩
      rw [mint_of_fitsIn fits, siteOrShown_of_given given]
      rfl
  | none =>
      cases read : draft.frames with
      | ok frames =>
          refine Or.inr (Or.inl ⟨frames, rfl, rfl, ?_⟩)
          rw [mint_of_fitsIn fits, siteOrShown_of_frames given read]
          rfl
      | error cause =>
          refine Or.inr (Or.inr ⟨cause, rfl, rfl, ?_⟩)
          rw [mint_of_fitsIn fits, siteOrShown_of_error given read]
          rfl

/-- A report comes of a draft exactly when the draft passes the gate and has a site to be found.
-/
theorem exists_mint_eq_ok_iff (draft : Draft)
    : (∃ report, draft.mint = .ok report)
      ↔ (∃ category, draft.FitsIn category)
        ∧ (draft.site ≠ none ∨ ∃ frames, draft.frames = .ok frames) := by
  rcases draft.fitsIn_or_refused with ⟨category, fits⟩ | ⟨refusal, minted, unfit, _⟩
  · rcases mint_cases_of_fitsIn fits with
      ⟨site, given, minted⟩ | ⟨frames, absent, read, minted⟩ | ⟨cause, absent, bad, minted⟩
    · exact ⟨fun _ => ⟨⟨category, fits⟩, Or.inl (by simp [given])⟩, fun _ => ⟨_, minted⟩⟩
    · exact ⟨fun _ => ⟨⟨category, fits⟩, Or.inr ⟨frames, read⟩⟩, fun _ => ⟨_, minted⟩⟩
    · simp [minted, absent, bad]
  · constructor
    · intro reaches
      obtain ⟨report, reached⟩ := reaches
      rw [minted] at reached
      cases reached
    · intro passed
      obtain ⟨⟨category, fits⟩, _⟩ := passed
      exact absurd fits (unfit category)

/-- A file URL fails a draft exactly when the draft passes the gate, gives no site, and its stack
has a frame that fails with the same cause.
-/
theorem mint_eq_url_iff (draft : Draft) (cause : FileUrl.Error)
    : draft.mint = .error (.url cause)
      ↔ (∃ category, draft.FitsIn category) ∧ draft.site = none
        ∧ draft.frames = .error cause := by
  rcases draft.fitsIn_or_refused with ⟨category, fits⟩ | ⟨refusal, minted, unfit, other⟩
  · have fitting : ∃ category, draft.FitsIn category := ⟨category, fits⟩
    rcases mint_cases_of_fitsIn fits with
      ⟨site, given, minted⟩ | ⟨frames, absent, read, minted⟩ | ⟨found, absent, bad, minted⟩
    · simp [minted, given]
    · simp [minted, read]
    · simp [minted, absent, bad, fitting]
  · constructor
    · intro failed
      rw [minted] at failed
      exact absurd (Except.error.inj failed) (other cause)
    · intro passed
      obtain ⟨⟨category, fits⟩, _⟩ := passed
      exact absurd fits (unfit category)

/-- A minted report is the draft's under a category that fits, at the site the draft gives or, for
want of one, at the first frame that its stack shows.
-/
theorem eq_reportAt_of_mint {draft : Draft} {report : Report} (minted : draft.mint = .ok report)
    : ∃ category site, draft.FitsIn category ∧ report = draft.reportAt category site
        ∧ (draft.site = some site
          ∨ draft.site = none
            ∧ ∃ frames, draft.frames = .ok frames ∧ site = Frame.firstPoint frames) := by
  rcases draft.fitsIn_or_refused with ⟨category, fits⟩ | ⟨refusal, refused, _⟩
  · rcases mint_cases_of_fitsIn fits with
      ⟨site, given, reached⟩ | ⟨frames, absent, read, reached⟩ | ⟨cause, _, _, reached⟩
    · have same := Except.ok.inj (minted.symm.trans reached)
      exact ⟨category, site, fits, same, Or.inl given⟩
    · have same := Except.ok.inj (minted.symm.trans reached)
      exact ⟨category, _, fits, same, Or.inr ⟨absent, frames, read, rfl⟩⟩
    · rw [reached] at minted
      cases minted
  · rw [refused] at minted
    cases minted

/-- Every outcome of minting is determined, in a fixed order of precedence. A kind outside the
category that is named, known or not, is the fault of that category, whatever else the draft
holds. The name of no category is an error: a fault without bounds for an unknown kind under a
name that tables inherit, and else for want of the bounds. A file URL counts only past the gate
and without a given site. A minted report holds what its draft gave, at the given site or else
at the first shown frame.
-/
theorem mint_determined (draft : Draft)
    : ((∃ report, draft.mint = .ok report)
        ↔ (∃ category, draft.FitsIn category)
          ∧ (draft.site ≠ none ∨ ∃ frames, draft.frames = .ok frames))
      ∧ (∀ category : Category,
          category.name = draft.category
          → draft.payload.kind ∉ category.kinds
          → ∃ first last,
              category.kinds.head? = some first
              ∧ category.kinds.getLast? = some last
              ∧ draft.mint
                = .error (.fault
                    (.kindOutsideCategory draft.category draft.payload.kind
                      (.listed [first, last]))))
      ∧ ((∀ category : Category, category.name ≠ draft.category)
          → (Category.IsStray draft.category draft.payload.kind
              → draft.mint
                = .error (.fault
                    (.kindOutsideCategory draft.category draft.payload.kind
                      (.inherited draft.category))))
            ∧ (¬ Category.IsStray draft.category draft.payload.kind
              → draft.mint = .error (.noCategory draft.category)))
      ∧ (∀ cause,
          draft.mint = .error (.url cause)
          ↔ (∃ category, draft.FitsIn category) ∧ draft.site = none
            ∧ draft.frames = .error cause)
      ∧ (∀ report,
          draft.mint = .ok report
          → report.category.name = draft.category
            ∧ report.payload = draft.payload
            ∧ report.location = draft.location
            ∧ report.context = draft.context
            ∧ (draft.site = some report.site
              ∨ draft.site = none
                ∧ ∃ frames, draft.frames = .ok frames
                  ∧ report.site = Frame.firstPoint frames)) := by
  refine ⟨draft.exists_mint_eq_ok_iff, ?_, ?_, draft.mint_eq_url_iff, ?_⟩
  · intro category named outside
    refine ⟨category.firstKind, category.lastKind, ?_, ?_, ?_⟩
    · exact List.head?_eq_some_head category.kinds_ne_nil
    · exact List.getLast?_eq_some_getLast category.kinds_ne_nil
    · exact mint_of_refused (named ▸ Category.accept_of_not_mem outside)
  · intro unnamed
    exact ⟨fun stray => mint_of_refused (Category.accept_of_isStray unnamed stray),
      fun regular => mint_of_refused (Category.accept_of_not_isStray unnamed regular)⟩
  · intro report minted
    obtain ⟨category, site, fits, rfl, found⟩ := eq_reportAt_of_mint minted
    exact ⟨fits.named, rfl, rfl, rfl, found⟩

-- A stack that cannot be read stays unnoticed behind a kind outside its category.
example
    : let stack := "    at f (file:///%2F:1:1)"
      let draft : Draft := { category := "parser", payload := ⟨"lex-line-too-long", []⟩, stack }
      draft.frames = .error .encodedSlash
      ∧ draft.mint
        = .error (.fault (.kindOutsideCategory "parser" "lex-line-too-long"
            (.listed ["par-invalid-indentation", "par-name"]))) :=
  ⟨rfl, rfl⟩

end Draft

end CompilerReports
