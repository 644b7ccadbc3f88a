import Mathlib.Data.List.Forall2
import CompilerReports.Frame
import CompilerReports.Proofs.FileUrl.Segments

/-! Files of frames are absolute. Resolution leaves no dot segment behind and decoding makes none,
however dots and separators are spelled, so that the file of a file URL is free of dot segments
unless its path stands as it is written. Files that are no file URLs are taken as they are.
-/

namespace CompilerReports

namespace FileUrl

open Text (pieces utf8)
open Text.Percent (octets?)

-----------------------------------------------------------------------------------------
-- Resolution
-----------------------------------------------------------------------------------------

/-- What every segment of a resolved path is: no spelling of a dot segment, and without a slash. -/
structure Settled (segment : List Char) : Prop where
  notSingle : isSingleDot segment = false
  notDouble : isDoubleDot segment = false
  separated : '/' ∉ segment

theorem settled_nil
    : Settled [] where
  notSingle := rfl
  notDouble := rfl
  separated := List.not_mem_nil

/-- The colon that marks a drive letter makes no dot segment. -/
theorem Settled.withDriveColon {segment : List Char} (settled : Settled segment)
    : Settled (withDriveColon segment) := by
  unfold FileUrl.withDriveColon
  split
  case h_2 => exact settled
  case h_1 letter =>
    split
    case isFalse => exact settled
    case isTrue alphabetic =>
      have noSlash : letter ≠ '/' := by
        rintro rfl
        exact absurd alphabetic (by decide)
      have colon : Char.toLower ':' = ':' := rfl
      refine ⟨?_, ?_, by simp [noSlash.symm]⟩
      · simp [isSingleDot, folded, ← String.toList_inj, colon]
      · simp [isDoubleDot, folded, ← String.toList_inj, colon]

/-- What is left behind at the end of a path: an empty segment. -/
def ending (isLast : Bool) : List (List Char) := if isLast then [[]] else []

/-- All that one more segment can do to a path. -/
theorem extend_cases (path : List (List Char)) (segment : List Char) (isLast : Bool)
    : (isDoubleDot segment = true ∧ extend path segment isLast = parent path ++ ending isLast)
      ∨ (isSingleDot segment = true ∧ extend path segment isLast = path ++ ending isLast)
      ∨ (isDoubleDot segment = false
          ∧ isSingleDot segment = false
          ∧ extend path segment isLast
            = if path.isEmpty then [withDriveColon segment] else path ++ [segment]) := by
  unfold extend
  cases double : isDoubleDot segment with
  | true => exact Or.inl ⟨rfl, rfl⟩
  | false =>
      cases single : isSingleDot segment with
      | true => exact Or.inr (Or.inl ⟨rfl, rfl⟩)
      | false => exact Or.inr (Or.inr ⟨rfl, rfl, rfl⟩)

/-- The path one level up has no further segments. -/
theorem parent_subset (path : List (List Char))
    : parent path ⊆ path := by
  unfold parent
  split
  case h_1 only =>
    split
    · exact List.Subset.refl _
    · exact List.nil_subset _
  case h_2 => exact List.dropLast_subset path

/-- One more segment leaves a settled path settled, by the kinds of segments. -/
theorem settled_extend {path : List (List Char)} (settled : ∀ segment ∈ path, Settled segment)
    {segment : List Char} (separated : '/' ∉ segment) (isLast : Bool)
    : ∀ other ∈ extend path segment isLast, Settled other := by
  have left : ∀ other ∈ ending isLast, Settled other := by
    cases isLast
    · exact List.forall_mem_nil _
    · exact List.forall_mem_singleton.mpr settled_nil
  obtain ⟨_, after⟩ | ⟨_, after⟩ | ⟨notDouble, notSingle, after⟩ :=
    extend_cases path segment isLast
  · rw [after]
    exact List.forall_mem_append.mpr
      ⟨fun other member => settled other (parent_subset path member), left⟩
  · rw [after]
    exact List.forall_mem_append.mpr ⟨settled, left⟩
  · rw [after]
    have here : Settled segment := ⟨notSingle, notDouble, separated⟩
    split
    case isTrue => exact List.forall_mem_singleton.mpr here.withDriveColon
    case isFalse =>
      exact List.forall_mem_append.mpr ⟨settled, List.forall_mem_singleton.mpr here⟩

/-- All further segments leave a settled path settled, by induction on them. -/
theorem settled_resolveFrom {segments : List (List Char)}
    (separated : ∀ segment ∈ segments, '/' ∉ segment) {path : List (List Char)}
    (settled : ∀ segment ∈ path, Settled segment)
    : ∀ segment ∈ resolveFrom path segments, Settled segment := by
  induction segments generalizing path with
  | nil => exact settled
  | cons segment rest ih =>
      obtain ⟨here, later⟩ := List.forall_mem_cons.mp separated
      cases rest with
      | nil => exact settled_extend settled here true
      | cons next more => exact ih later (settled_extend settled here false)

/-- The last segment leaves a segment behind, a dot segment an empty one. -/
theorem extend_last_ne_nil (path : List (List Char)) (segment : List Char)
    : extend path segment true ≠ [] := by
  obtain ⟨_, after⟩ | ⟨_, after⟩ | ⟨_, _, after⟩ := extend_cases path segment true
  · rw [after]
    exact List.append_ne_nil_of_right_ne_nil _ (List.cons_ne_nil _ _)
  · rw [after]
    exact List.append_ne_nil_of_right_ne_nil _ (List.cons_ne_nil _ _)
  · rw [after]
    split <;> simp

theorem resolveFrom_ne_nil {segments : List (List Char)} (given : segments ≠ [])
    (path : List (List Char))
    : resolveFrom path segments ≠ [] := by
  induction segments generalizing path with
  | nil => exact absurd rfl given
  | cons segment rest ih =>
      cases rest with
      | nil => exact extend_last_ne_nil path segment
      | cons next more => exact ih (List.cons_ne_nil _ _) _

theorem separated_of_mem_segmentsOf {path segment : List Char} (member : segment ∈ segmentsOf path)
    : '/' ∉ segment :=
  fun inside => absurd (Text.unmarked_of_mem_pieces member '/' inside) (by decide)

/-- A path that does not stand as it is written is resolved to settled segments. -/
theorem settled_resolve {path : List Char} (resolves : standsAsWritten path = false)
    : ∀ segment ∈ resolve path, Settled segment := by
  rw [resolve, resolves]
  exact settled_resolveFrom (fun _ => separated_of_mem_segmentsOf) (List.forall_mem_nil _)

theorem separated_resolve {path : List Char}
    : ∀ segment ∈ resolve path, '/' ∉ segment := by
  cases stands : standsAsWritten path with
  | false => exact fun segment member => (settled_resolve stands segment member).separated
  | true =>
      rw [resolve, stands]
      exact fun _ => separated_of_mem_segmentsOf

theorem resolve_ne_nil (path : List Char)
    : resolve path ≠ [] := by
  have given : segmentsOf path ≠ [] := Text.pieces_ne_nil isSeparator path
  unfold resolve
  split
  · exact given
  · exact resolveFrom_ne_nil given []

/-- A path that stands as it is written is neither escaped nor cut anywhere but at its slashes. -/
theorem resolve_of_standing {path : List Char} (stands : standsAsWritten path = true)
    : joined (resolve path) = '/' :: path ∧ '%' ∉ path := by
  have plain : ∀ c ∈ path, isPlain c = true :=
    List.all_eq_true.mp (Bool.and_eq_true_iff.mp stands).1
  have noBackslash : '\\' ∉ path := fun member => absurd (plain _ member) (by decide)
  refine ⟨?_, fun member => absurd (plain '%' member) (by decide)⟩
  rw [resolve, stands, if_pos rfl, segmentsOf_eq_pieces noBackslash, joined_pieces]

-----------------------------------------------------------------------------------------
-- Paths of file URLs
-----------------------------------------------------------------------------------------

/-- The path of a URL as it is written, behind the characters that every file URL starts with. -/
def writtenPath (url : List Char) : List Char := (written url).drop start.length

/-- (DotFree path) holds when no segment between the slashes of a path is a dot segment. -/
def DotFree (path : String) : Prop :=
  ∀ segment ∈ pieces isSlash path.toList, segment ≠ ['.'] ∧ segment ≠ ['.', '.']

instance (path : String) : Decidable (DotFree path) :=
  decidable_of_iff
    ((pieces isSlash path.toList).all
      (fun segment => segment != ['.'] && segment != ['.', '.']) = true)
    (by simp [DotFree])

variable {url : List Char} {file : String}

theorem absolute_of_path (read : path url = .ok file)
    : file.toList.head? = some '/' := by
  obtain ⟨names, whole, _, alike⟩ := exists_names_of_decode separated_resolve read
  cases names with
  | nil => exact absurd (List.map_eq_nil_iff.mp alike) (resolve_ne_nil _)
  | cons name rest => rw [whole]; rfl

/-- Settled segments are decoded to names that are no dots. -/
theorem dotFree_of_path (resolves : standsAsWritten (writtenPath url) = false)
    (read : path url = .ok file)
    : DotFree file := by
  obtain ⟨names, _, split, alike⟩ := exists_names_of_decode separated_resolve read
  intro segment member
  rw [split] at member
  rcases List.mem_cons.mp member with rfl | named
  · exact ⟨(List.cons_ne_nil _ _).symm, (List.cons_ne_nil _ _).symm⟩
  have decoded : (some ∘ utf8) segment ∈ (resolve (writtenPath url)).map octets? :=
    alike ▸ List.mem_map_of_mem named
  obtain ⟨origin, resolved, octets⟩ := List.mem_map.mp decoded
  have settled := settled_resolve resolves origin resolved
  constructor
  · rintro rfl
    exact absurd (isSingleDot_iff_octets.mpr octets) (Bool.eq_false_iff.mp settled.notSingle)
  · rintro rfl
    exact absurd (isDoubleDot_iff_octets.mpr octets) (Bool.eq_false_iff.mp settled.notDouble)

theorem path_of_standing (stands : standsAsWritten (writtenPath url) = true)
    : path url = .ok (String.ofList ('/' :: writtenPath url)) := by
  obtain ⟨whole, unescaped⟩ := resolve_of_standing stands
  rw [path, resolved, ← writtenPath, whole]
  exact decode_of_unescaped (by simpa using unescaped)

/-- What the file of a frame is, by the text that stands for it in the frame line. -/
structure Normalized (raw : List Char) (file : String) : Prop where
  kept : ¬ "file:///".toList <+: raw → file = String.ofList raw
  absolute : "file:///".toList <+: raw → file.toList.head? = some '/'
  dotFree : "file:///".toList <+: raw → standsAsWritten (writtenPath raw) = false → DotFree file
  standing :
    "file:///".toList <+: raw
    → standsAsWritten (writtenPath raw) = true
    → file = String.ofList ('/' :: writtenPath raw)

theorem normalized_of_fileOf {raw : List Char} (read : fileOf raw = .ok file)
    : Normalized raw file := by
  unfold fileOf at read
  split at read
  case isFalse other =>
    have noUrl : ¬ "file:///".toList <+: raw :=
      fun starts => other (List.isPrefixOf_iff_prefix.mpr starts)
    exact ⟨fun _ => (Except.ok.inj read).symm, fun starts => absurd starts noUrl,
      fun starts => absurd starts noUrl, fun starts => absurd starts noUrl⟩
  case isTrue url =>
    have starts : "file:///".toList <+: raw := List.isPrefixOf_iff_prefix.mp url
    refine ⟨fun noUrl => absurd starts noUrl, fun _ => absolute_of_path read,
      fun _ resolves => dotFree_of_path resolves read, fun _ stands => ?_⟩
    rw [path_of_standing stands] at read
    exact (Except.ok.inj read).symm

end FileUrl

-----------------------------------------------------------------------------------------
-- Frames
-----------------------------------------------------------------------------------------

namespace Frame

/-- The frame of a frame line whose file is known. -/
def withFile (parts : FrameLine) (file : String) : Frame where
  procedure := (parts.procedure.map String.ofList).getD anonymous
  file
  line := numberOf parts.line
  column := numberOf parts.column

/-- A frame line makes a frame when its file can be told, and the frame has that file. -/
theorem ofFrameLine_eq_ok_iff {parts : FrameLine} {frame : Frame}
    : ofFrameLine parts = .ok frame
      ↔ ∃ file, FileUrl.fileOf parts.file = .ok file ∧ frame = withFile parts file := by
  unfold ofFrameLine
  cases FileUrl.fileOf parts.file with
  | error fault => simp [bind, Except.bind]
  | ok file => simp [bind, Except.bind, pure, Except.pure, withFile, eq_comm]

/-- Frame lines are read one by one, by induction on them. -/
theorem forall₂_of_mapM {lines : List FrameLine} {frames : List Frame}
    (read : lines.mapM ofFrameLine = .ok frames)
    : List.Forall₂ (fun parts frame => ofFrameLine parts = .ok frame) lines frames := by
  induction lines generalizing frames with
  | nil =>
      obtain rfl : [] = frames := Except.ok.inj read
      exact .nil
  | cons parts rest ih =>
      rw [List.mapM_cons] at read
      cases first : ofFrameLine parts with
      | error fault =>
          rw [first] at read
          exact absurd read (by simp [bind, Except.bind])
      | ok frame =>
          cases later : rest.mapM ofFrameLine with
          | error fault =>
              rw [first, later] at read
              exact absurd read (by simp [bind, Except.bind])
          | ok others =>
              rw [first, later] at read
              obtain rfl : frame :: others = frames := Except.ok.inj read
              exact .cons first (ih later)

end Frame

/-- A stack text with one frame line has the frame of that line, if its file can be told. -/
theorem framesOf_of_fileOf {stack : String} {parts : FrameLine} {file : String}
    (only : (Text.lines stack.toList).filterMap FrameLine.ofLine? = [parts])
    (found : FileUrl.fileOf parts.file = .ok file)
    : framesOf stack = .ok [Frame.withFile parts file] := by
  have made := Frame.ofFrameLine_eq_ok_iff.mpr ⟨file, found, rfl⟩
  rw [framesOf, only, List.mapM_cons, made]
  rfl

/-- Whenever a stack text is read, the files of its frames are normalized: the files of file URLs
are absolute, and free of dot segments however those are spelled, unless their paths stand as they
are written; all other files are kept.
-/
theorem framesOf_files_normalized {stack : String} {frames : List Frame}
    (read : framesOf stack = .ok frames)
    : List.Forall₂ (fun parts frame => FileUrl.Normalized parts.file frame.file)
        ((Text.lines stack.toList).filterMap FrameLine.ofLine?) frames := by
  refine (Frame.forall₂_of_mapM read).imp ?_
  intro parts frame made
  obtain ⟨file, found, rfl⟩ := Frame.ofFrameLine_eq_ok_iff.mp made
  exact FileUrl.normalized_of_fileOf found

/-- Mixed spellings of dots and separators are resolved behind a drive letter, up to the query. -/
theorem framesOf_files_normalized_mixed_spellings
    : let stack := "at f (file:///C|\\.%2E\\a b/%2e/c?x:1:2)"
      let frames : List Frame := [⟨"f", "/C:/a b/c", Frame.numberOf ['1'], Frame.numberOf ['2']⟩]
      framesOf stack = .ok frames
      ∧ List.Forall₂ (fun parts frame => FileUrl.Normalized parts.file frame.file)
          ((Text.lines stack.toList).filterMap FrameLine.ofLine?) frames := by
  intro stack frames
  let url := "file:///C|\\.%2E\\a b/%2e/c?x".toList
  have only : (Text.lines "at f (file:///C|\\.%2E\\a b/%2e/c?x:1:2)".toList).filterMap
      FrameLine.ofLine? = [⟨some ['f'], url, ['1'], ['2']⟩] := by
    decide
  have resolved : FileUrl.resolved url = "/C:/a b/c".toList := by decide
  have found : FileUrl.fileOf url = .ok "/C:/a b/c" := by
    rw [FileUrl.fileOf, if_pos (by decide), FileUrl.path, resolved]
    exact FileUrl.decode_of_unescaped (by decide)
  have read : framesOf stack = .ok frames := framesOf_of_fileOf only found
  exact ⟨read, framesOf_files_normalized read⟩

/-- A plain path keeps its dot segments where a hidden name comes before them. -/
theorem framesOf_hidden_name_first
    : let stack := "    at f (file:///home/.config/../a:12:34)"
      let file := "/home/.config/../a"
      let parts : FrameLine :=
        ⟨some ['f'], "file:///home/.config/../a".toList, ['1', '2'], ['3', '4']⟩
      (Text.lines stack.toList).filterMap FrameLine.ofLine? = [parts]
      ∧ "file:///".toList <+: parts.file
      ∧ framesOf stack = .ok [⟨"f", file, Frame.numberOf ['1', '2'], Frame.numberOf ['3', '4']⟩]
      ∧ ['.', '.'] ∈ Text.pieces FileUrl.isSlash file.toList := by
  intro stack file parts
  have only : (Text.lines "    at f (file:///home/.config/../a:12:34)".toList).filterMap
      FrameLine.ofLine? = [parts] := by
    decide
  have found : FileUrl.fileOf parts.file = .ok "/home/.config/../a" := by
    rw [FileUrl.fileOf, if_pos (by decide)]
    exact FileUrl.path_of_standing (by decide)
  exact ⟨only, by decide, framesOf_of_fileOf only found, by decide⟩

end CompilerReports
