import CompilerReports.Proofs.FileUrl.EncodedPath

/-! Detours of file URLs: segments that a double dot right behind them goes back from. The path that
a detour starts at is the path that it leads to, so it does not matter for the file. There are two
exceptions: a path that stands as it is written keeps its dots, and at the root a segment is held
that starts as a drive letter does.
-/

namespace CompilerReports

/-- A character that is kept at the end of a text keeps all that stands before it. -/
theorem Text.dropEndWhile_append_cons {unwanted : Char → Bool} {c : Char}
    (kept : unwanted c = false) (left right : List Char)
    : dropEndWhile unwanted (left ++ c :: right) = left ++ c :: dropEndWhile unwanted right := by
  have turned : (left ++ c :: right).reverse = right.reverse ++ c :: left.reverse := by simp
  have stops : (c :: left.reverse).dropWhile unwanted = c :: left.reverse := by
    rw [List.dropWhile_cons, kept]
    rfl
  rw [dropEndWhile, dropEndWhile, turned, List.dropWhile_append, stops]
  split
  case isTrue gone =>
    rw [List.isEmpty_iff.mp gone]
    simp
  case isFalse => simp

namespace FileUrl

open Text (pieces)

-----------------------------------------------------------------------------------------
-- Segments up to a slash
-----------------------------------------------------------------------------------------

/-- What follows a slash is cleaned and cut on its own, if nothing before it is cut. -/
theorem written_append_slash {before : List Char} (uncut : ∀ c ∈ before, startsExtra c = false)
    (after : List Char)
    : written (before ++ '/' :: after)
      = before.filter (fun c => !isIgnored c) ++ '/' :: written after := by
  have kept : ∀ c ∈ before.filter (fun c => !isIgnored c), (!startsExtra c) = true := by
    intro c member
    rw [uncut c (List.mem_filter.mp member).1]
    rfl
  have counted : isIgnored '/' = false := rfl
  have goesOn : startsExtra '/' = false := rfl
  rw [written, Text.dropEndWhile_append_cons rfl, List.filter_append, List.filter_cons, counted,
    Bool.not_false, if_pos rfl, List.takeWhile_append_of_pos kept, List.takeWhile_cons, goesOn]
  rfl

/-- The segments that are complete before a slash, where `before` is what stands before it. -/
def segmentsBefore (before : List Char) : List (List Char) :=
  (segmentsOf (writtenPath (before ++ ['/']))).dropLast

theorem segmentsOf_append_slash (left right : List Char)
    : segmentsOf (left ++ '/' :: right) = segmentsOf left ++ segmentsOf right :=
  Text.pieces_append_cons rfl left right

section

variable {before : List Char} (starts : "file:///".toList <+: before ++ ['/'])
  (uncut : ∀ c ∈ before, startsExtra c = false)

include starts uncut

/-- What follows a slash is behind the path up to the slash. -/
theorem writtenPath_append_slash (after : List Char)
    : writtenPath (before ++ '/' :: after) = writtenPath (before ++ ['/']) ++ written after := by
  have whole : written (before ++ '/' :: after) = written (before ++ ['/']) ++ written after := by
    rw [written_append_slash uncut, written_append_slash uncut]
    exact (List.append_assoc _ ['/'] _).symm
  have long : start.length ≤ (written (before ++ ['/'])).length := by
    obtain ⟨rest, split⟩ := starts
    have cleaned : before.filter (fun c => !isIgnored c) ++ ['/']
        = start ++ rest.filter fun c => !isIgnored c := by
      have marks : ['/'].filter (fun c => !isIgnored c) = ['/'] := rfl
      rw [← marks, ← List.filter_append, ← split, List.filter_append]
      rfl
    have empty : written [] = [] := rfl
    rw [written_append_slash uncut, empty, cleaned, List.length_append]
    exact Nat.le_add_right _ _
  rw [writtenPath, writtenPath, whole, List.drop_append_of_le_length long]

/-- What follows a slash has its segments behind those before the slash. -/
theorem segmentsOf_writtenPath (after : List Char)
    : segmentsOf (writtenPath (before ++ '/' :: after))
      = segmentsBefore before ++ segmentsOf (written after) := by
  have ends : writtenPath (before ++ ['/']) = []
      ∨ ∃ front, writtenPath (before ++ ['/']) = front ++ ['/'] := by
    have empty : written [] = [] := rfl
    rw [writtenPath, written_append_slash uncut, empty]
    by_cases within : start.length ≤ (before.filter fun c => !isIgnored c).length
    case pos => exact Or.inr ⟨_, List.drop_append_of_le_length within⟩
    case neg =>
      refine Or.inl (List.drop_eq_nil_iff.mpr ?_)
      rw [List.length_append, List.length_singleton]
      omega
  rw [writtenPath_append_slash starts uncut, segmentsBefore]
  obtain none | ⟨front, some⟩ := ends
  · rw [none]
    rfl
  · have split : front ++ ['/'] ++ written after = front ++ '/' :: written after := by simp
    have alone : segmentsOf [] = [[]] := rfl
    rw [some, split, segmentsOf_append_slash, segmentsOf_append_slash, alone,
      List.dropLast_concat]

end

-----------------------------------------------------------------------------------------
-- Resolution
-----------------------------------------------------------------------------------------

/-- The path after segments that others follow. -/
def descend (path segments : List (List Char)) : List (List Char) :=
  segments.foldl (fun path segment => extend path segment false) path

theorem resolveFrom_cons (path : List (List Char)) (segment : List Char)
    {rest : List (List Char)} (given : rest ≠ [])
    : resolveFrom path (segment :: rest) = resolveFrom (extend path segment false) rest := by
  cases rest with
  | nil => exact absurd rfl given
  | cons next more => rfl

/-- Segments are resolved from where those before them lead, by induction on the latter. -/
theorem resolveFrom_append (path left : List (List Char)) {right : List (List Char)}
    (given : right ≠ [])
    : resolveFrom path (left ++ right) = resolveFrom (descend path left) right := by
  induction left generalizing path with
  | nil => rfl
  | cons segment rest ih =>
      have followed : rest ++ right ≠ [] := List.append_ne_nil_of_right_ne_nil rest given
      rw [List.cons_append, resolveFrom_cons path segment followed, ih]
      rfl

/-- Only a drive letter is given a colon. -/
theorem withDriveColon_of_notDrive {segment : List Char} (notDrive : isDrive segment = false)
    : withDriveColon segment = segment := by
  unfold withDriveColon
  split
  case h_1 letter =>
    split
    case isTrue alphabetic => simp [isDrive, alphabetic] at notDrive
    case isFalse => rfl
  case h_2 => rfl

/-- A double dot goes back from the segment before it, unless that one is held at the root because
it starts as a drive letter does.
-/
theorem descend_doubleDot {segment : List Char}
    (name : isSingleDot segment = false ∧ isDoubleDot segment = false)
    (notDrive : isDrive segment = false) (path : List (List Char))
    : descend path [segment, ['.', '.']]
      = if path = [] ∧ startsAsDrive segment = true then descend path [segment] else path := by
  have back (longer : List (List Char)) : extend longer ['.', '.'] false = parent longer :=
    List.append_nil _
  have put : extend path segment false = path ++ [segment] := by
    rw [extend_of_name name, withDriveColon_of_notDrive notDrive]
    cases path <;> rfl
  have forth : descend path [segment] = path ++ [segment] := put
  have whole : descend path [segment, ['.', '.']] = parent (path ++ [segment]) := by
    rw [← put, ← back]
    rfl
  rw [whole, forth]
  cases path with
  | nil => cases drive : startsAsDrive segment <;> simp [parent, drive]
  | cons first rest =>
      rw [if_neg fun held => List.cons_ne_nil first rest held.1]
      cases rest with
      | nil => rfl
      | cons second more => simp [parent, List.dropLast]

-----------------------------------------------------------------------------------------
-- Paths that keep their dots
-----------------------------------------------------------------------------------------

/-- (KeepsDots url) holds of the URLs whose paths stand as they are written although dot segments
are in them.
-/
def KeepsDots (url : List Char) : Prop :=
  standsAsWritten (writtenPath url) = true ∧ ¬ DotFree (String.ofList ('/' :: writtenPath url))

instance (url : List Char) : Decidable (KeepsDots url) :=
  inferInstanceAs (Decidable (_ ∧ _))

/-- Without escapes a dot has one spelling. -/
theorem eq_dot_of_mem_dotSpellings {spelling : List Char} (member : spelling ∈ dotSpellings)
    (unescaped : '%' ∉ spelling)
    : spelling = ['.'] := by
  simp only [dotSpellings, List.mem_cons, List.not_mem_nil, or_false] at member
  rcases member with rfl | rfl | rfl
  · rfl
  all_goals exact absurd List.mem_cons_self unescaped

/-- Without escapes the dot segments are one and two dots. -/
theorem names_of_unescaped {segment : List Char} (unescaped : '%' ∉ segment)
    (notDots : segment ≠ ['.'] ∧ segment ≠ ['.', '.'])
    : isSingleDot segment = false ∧ isDoubleDot segment = false := by
  constructor
  · refine Bool.eq_false_iff.mpr fun single => notDots.1 ?_
    exact eq_dot_of_mem_dotSpellings (isSingleDot_iff.mp single) unescaped
  · refine Bool.eq_false_iff.mpr fun double => notDots.2 ?_
    obtain ⟨first, firstDot, second, secondDot, rfl⟩ := isDoubleDot_iff.mp double
    simp only [List.mem_append, not_or] at unescaped
    rw [eq_dot_of_mem_dotSpellings firstDot unescaped.1,
      eq_dot_of_mem_dotSpellings secondDot unescaped.2]
    rfl

/-- The first segment of a path that stands as it is written is no drive letter. -/
theorem notDrive_of_standing {path first : List Char} (stands : standsAsWritten path = true)
    (found : (segmentsOf path).head? = some first)
    : isDrive first = false := by
  obtain ⟨rest, split⟩ := List.head?_eq_some_iff.mp found
  have hides := (Bool.and_eq_true_iff.mp stands).2
  rw [split] at hides
  simp only [hidesFirst, Bool.and_eq_true, Bool.not_eq_true'] at hides
  exact hides.1.1

/-- Where no dots are kept, it does not matter whether a path stands as it is written. -/
theorem resolve_of_not_keepsDots {url : List Char} (free : ¬ KeepsDots url)
    : resolve (writtenPath url) = resolveFrom [] (segmentsOf (writtenPath url)) := by
  cases stands : standsAsWritten (writtenPath url) with
  | false =>
      rw [resolve, stands]
      rfl
  | true =>
      have dotFree : DotFree (String.ofList ('/' :: writtenPath url)) :=
        Decidable.byContradiction fun dots => free ⟨stands, dots⟩
      obtain ⟨whole, unescaped⟩ := resolve_of_standing stands
      rw [resolve, stands, if_pos rfl] at whole ⊢
      have split : pieces isSlash ('/' :: writtenPath url)
          = [] :: segmentsOf (writtenPath url) := by
        rw [← whole]
        exact pieces_joined fun _ => separated_of_mem_segmentsOf
      rw [DotFree, String.toList_ofList, split] at dotFree
      have names : ∀ segment ∈ segmentsOf (writtenPath url),
          isSingleDot segment = false ∧ isDoubleDot segment = false := by
        intro segment member
        refine names_of_unescaped ?_ (dotFree segment (List.mem_cons_of_mem _ member))
        intro percent
        have inside : '%' ∈ joined (segmentsOf (writtenPath url)) :=
          List.mem_flatMap.mpr ⟨segment, member, List.mem_cons_of_mem _ percent⟩
        rw [whole] at inside
        rcases List.mem_cons.mp inside with same | later
        · exact absurd same (by decide)
        · exact unescaped later
      refine (resolveFrom_nil_of_names names fun first found => ?_).symm
      exact withDriveColon_of_notDrive (notDrive_of_standing stands found)

/-- URLs whose paths are resolved alike name the same file. -/
theorem fileOf_of_resolved {left right : List Char} (leftStarts : "file:///".toList <+: left)
    (rightStarts : "file:///".toList <+: right)
    (leftFree : ¬ KeepsDots left) (rightFree : ¬ KeepsDots right)
    (alike
      : resolveFrom [] (segmentsOf (writtenPath left))
        = resolveFrom [] (segmentsOf (writtenPath right)))
    : fileOf left = fileOf right := by
  have resolvedAlike : resolved left = resolved right := by
    rw [resolved, resolved, ← writtenPath, ← writtenPath, resolve_of_not_keepsDots leftFree,
      resolve_of_not_keepsDots rightFree, alike]
  have leftUrl : isFileUrl left = true := List.isPrefixOf_iff_prefix.mpr leftStarts
  have rightUrl : isFileUrl right = true := List.isPrefixOf_iff_prefix.mpr rightStarts
  rw [fileOf, fileOf, leftUrl, rightUrl, if_pos rfl, if_pos rfl, path, path, resolvedAlike]

/-- A URL that keeps its dots names a file that no URL with another path names. Witness: the file
of a path that is resolved has no dots, and the file of one that stands is the path itself.
-/
theorem fileOf_ne_of_keepsDots {left right : List Char} (leftStarts : "file:///".toList <+: left)
    (rightStarts : "file:///".toList <+: right) (keeps : KeepsDots left)
    (different : writtenPath left ≠ writtenPath right)
    : fileOf left ≠ fileOf right := by
  intro same
  have leftUrl : isFileUrl left = true := List.isPrefixOf_iff_prefix.mpr leftStarts
  have leftFile : fileOf left = .ok (String.ofList ('/' :: writtenPath left)) := by
    rw [fileOf, leftUrl, if_pos rfl, path_of_standing keeps.1]
  have normalized := normalized_of_fileOf (same ▸ leftFile)
  cases stands : standsAsWritten (writtenPath right) with
  | false => exact keeps.2 (normalized.dotFree rightStarts stands)
  | true =>
      have equal := String.ofList_injective (normalized.standing rightStarts stands)
      exact different (List.cons.inj equal).2

-----------------------------------------------------------------------------------------
-- Detours
-----------------------------------------------------------------------------------------

/-- (Detour before removed after) holds of what a URL consists of when a segment and a double dot
stand between two slashes of it: the path is not cut before them, and the segment is neither a dot
segment nor a drive letter, and holds nothing that would end or change it.
-/
structure Detour (before removed after : List Char) : Prop where
  starts : "file:///".toList <+: before ++ ['/']
  uncut : '?' ∉ before ∧ '#' ∉ before
  within : ∀ c ∈ removed, c ∉ ['\t', '/', '\\', '?', '#']
  notSingle : isSingleDot removed = false
  notDouble : isDoubleDot removed = false
  notDrive : isDrive removed = false
  oneLine : ∀ c ∈ before ++ removed ++ after, Text.isLineTerminator c = false

/-- The text of a URL with a segment and a double dot between two slashes of it. -/
def withDetour (before removed after : List Char) : List Char :=
  before ++ '/' :: (removed ++ '/' :: '.' :: '.' :: '/' :: after)

/-- (HeldAtRoot before removed) holds when the segments before lead to the root and the segment
starts as a drive letter does, so that a double dot does not go back from it.
-/
def HeldAtRoot (before removed : List Char) : Prop :=
  descend [] (segmentsBefore before) = [] ∧ startsAsDrive removed = true

instance (before removed : List Char) : Decidable (HeldAtRoot before removed) :=
  inferInstanceAs (Decidable (_ ∧ _))

namespace Detour

variable {before removed after : List Char} (detour : Detour before removed after)

include detour

theorem starts_append (rest : List Char)
    : "file:///".toList <+: before ++ '/' :: rest := by
  have split : before ++ '/' :: rest = before ++ ['/'] ++ rest := by simp
  rw [split]
  exact detour.starts.trans (List.prefix_append _ _)

theorem notExtra
    : ∀ c ∈ before, startsExtra c = false := by
  intro c member
  refine Bool.eq_false_iff.mpr fun extra => ?_
  simp only [startsExtra, Bool.or_eq_true, beq_iff_eq] at extra
  obtain rfl | rfl := extra
  · exact detour.uncut.1 member
  · exact detour.uncut.2 member

/-- The segment is written as it is, and is a segment of its own. -/
theorem segmentsOf_removed (rest : List Char)
    : segmentsOf (written (removed ++ '/' :: rest)) = removed :: segmentsOf (written rest) := by
  have plain : ∀ c ∈ removed,
      isIgnored c = false ∧ startsExtra c = false ∧ isSeparator c = false := by
    intro c member
    have line := detour.oneLine c (List.mem_append_left _ (List.mem_append_right _ member))
    have inside := detour.within c member
    simp only [Text.isLineTerminator, Text.lineTerminators, List.contains_eq_mem, List.mem_cons,
      List.not_mem_nil, or_false, not_or, decide_eq_false_iff_not] at line inside
    simp [isIgnored, startsExtra, isSeparator, line, inside]
  have kept : removed.filter (fun c => !isIgnored c) = removed := by
    refine List.filter_eq_self.mpr fun c member => ?_
    rw [(plain c member).1]
    rfl
  have alone : segmentsOf removed = [removed] :=
    Text.pieces_of_unmarked fun c member => (plain c member).2.2
  rw [written_append_slash (fun c member => (plain c member).2.1), kept,
    segmentsOf_append_slash, alone]
  rfl

/-- With the detour a path has two segments more. -/
theorem segmentsOf_long
    : segmentsOf (writtenPath (withDetour before removed after))
      = segmentsBefore before ++ [removed, ['.', '.']] ++ segmentsOf (written after) := by
  have dots : segmentsOf (written ('.' :: '.' :: '/' :: after))
      = ['.', '.'] :: segmentsOf (written after) := by
    have split : written (['.', '.'] ++ '/' :: after) = ['.', '.'] ++ '/' :: written after :=
      written_append_slash (by simp [startsExtra]) after
    exact (congrArg segmentsOf split).trans (segmentsOf_append_slash ['.', '.'] _)
  rw [withDetour, segmentsOf_writtenPath detour.starts detour.notExtra,
    detour.segmentsOf_removed, dots]
  simp

/-- Without the double dot a path has one segment more. -/
theorem segmentsOf_held
    : segmentsOf (writtenPath (before ++ '/' :: (removed ++ '/' :: after)))
      = segmentsBefore before ++ [removed] ++ segmentsOf (written after) := by
  rw [segmentsOf_writtenPath detour.starts detour.notExtra, detour.segmentsOf_removed]
  simp

/-- A double dot goes back to where the segments before the detour lead, or the detour is held. -/
theorem descend_eq
    : descend [] (segmentsBefore before ++ [removed, ['.', '.']])
      = if HeldAtRoot before removed then descend [] (segmentsBefore before ++ [removed])
        else descend [] (segmentsBefore before) := by
  have joined (more : List (List Char)) : descend [] (segmentsBefore before ++ more)
      = descend (descend [] (segmentsBefore before)) more :=
    List.foldl_append
  rw [joined, joined]
  exact descend_doubleDot ⟨detour.notSingle, detour.notDouble⟩ detour.notDrive _

/-- A detour does not matter for the file, unless it is held or dots are kept. -/
theorem fileOf_long (free : ¬ HeldAtRoot before removed)
    (shortFree : ¬ KeepsDots (before ++ '/' :: after))
    (longFree : ¬ KeepsDots (withDetour before removed after))
    : fileOf (withDetour before removed after) = fileOf (before ++ '/' :: after) := by
  refine fileOf_of_resolved (detour.starts_append _) (detour.starts_append _) longFree shortFree ?_
  have given : segmentsOf (written after) ≠ [] := Text.pieces_ne_nil isSeparator _
  rw [detour.segmentsOf_long, segmentsOf_writtenPath detour.starts detour.notExtra,
    resolveFrom_append _ _ given, resolveFrom_append _ _ given, detour.descend_eq, if_neg free]

/-- The double dot of a detour that is held does not matter, unless dots are kept. -/
theorem fileOf_long_of_held (held : HeldAtRoot before removed)
    (longFree : ¬ KeepsDots (withDetour before removed after))
    (heldFree : ¬ KeepsDots (before ++ '/' :: (removed ++ '/' :: after)))
    : fileOf (withDetour before removed after)
      = fileOf (before ++ '/' :: (removed ++ '/' :: after)) := by
  refine fileOf_of_resolved (detour.starts_append _) (detour.starts_append _) longFree heldFree ?_
  have given : segmentsOf (written after) ≠ [] := Text.pieces_ne_nil isSeparator _
  rw [detour.segmentsOf_long, detour.segmentsOf_held, resolveFrom_append _ _ given,
    resolveFrom_append _ _ given, detour.descend_eq, if_pos held]

/-- A detour matters where dots are kept. -/
theorem fileOf_long_ne
    (keeps
      : KeepsDots (before ++ '/' :: after)
        ∨ KeepsDots (withDetour before removed after))
    : fileOf (withDetour before removed after)
      ≠ fileOf (before ++ '/' :: after) := by
  have different : writtenPath (before ++ '/' :: after)
      ≠ writtenPath (withDetour before removed after) := by
    intro same
    have lengths := congrArg (fun path => (segmentsOf path).length) same
    simp only [detour.segmentsOf_long, segmentsOf_writtenPath detour.starts detour.notExtra,
      List.length_append, List.length_cons, List.length_nil] at lengths
    omega
  rcases keeps with short | long
  · exact (fileOf_ne_of_keepsDots (detour.starts_append _) (detour.starts_append _) short
      different).symm
  · exact fileOf_ne_of_keepsDots (detour.starts_append _) (detour.starts_append _) long
      different.symm

end Detour

end FileUrl

end CompilerReports
