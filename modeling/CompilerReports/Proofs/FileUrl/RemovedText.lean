import CompilerReports.Proofs.FileUrl.Detours

/-! Text that a file URL does not keep. A query, a fragment and a detour are removed before anything
is decoded, so neither escapes nor slashes in them matter for the frame that names the URL.
-/

namespace CompilerReports

namespace FileUrl

-----------------------------------------------------------------------------------------
-- Queries and fragments
-----------------------------------------------------------------------------------------

/-- A URL is cut at the first mark of a query or a fragment, by induction on what precedes it. -/
theorem takeWhile_append_extra {mark : Char} (extra : startsExtra mark = true)
    (url rest : List Char)
    : (url ++ mark :: rest).takeWhile (fun c => !startsExtra c)
      = url.takeWhile fun c => !startsExtra c := by
  induction url with
  | nil => simp [extra]
  | cons c more ih => rw [List.cons_append, List.takeWhile_cons, List.takeWhile_cons, ih]

/-- A query and a fragment leave a URL that ends in no padding as it was without them. -/
theorem written_append_extra {url : List Char} {mark : Char} (given : url ≠ [])
    (unpadded : ∀ c, url.getLast? = some c → isPadding c = false)
    (extra : mark = '?' ∨ mark = '#') (rest : List Char)
    : written (url ++ mark :: rest) = written url := by
  obtain ⟨front, last, rfl⟩ : ∃ front last, url = front ++ [last] :=
    ⟨_, _, (List.dropLast_append_getLast given).symm⟩
  have lastKept : isPadding last = false := unpadded last List.getLast?_concat
  obtain ⟨markKept, counted, cuts⟩
      : isPadding mark = false ∧ isIgnored mark = false ∧ startsExtra mark = true := by
    obtain rfl | rfl := extra <;> decide
  have whole : front ++ [last] ++ mark :: rest = front ++ last :: (mark :: rest) := by simp
  have behind : Text.dropEndWhile isPadding (mark :: rest)
      = mark :: Text.dropEndWhile isPadding rest :=
    Text.dropEndWhile_append_cons markKept [] rest
  have alone : Text.dropEndWhile isPadding (front ++ [last]) = front ++ [last] :=
    Text.dropEndWhile_append_cons lastKept front []
  have split : front ++ last :: mark :: Text.dropEndWhile isPadding rest
      = (front ++ [last]) ++ mark :: Text.dropEndWhile isPadding rest := by
    simp
  rw [written, written, whole, Text.dropEndWhile_append_cons lastKept, behind, alone, split,
    List.filter_append, List.filter_cons, counted, Bool.not_false, if_pos rfl,
    takeWhile_append_extra cuts]

/-- A query and a fragment do not matter for the file. -/
theorem fileOf_append_extra {url : List Char} {mark : Char}
    (starts : "file:///".toList <+: url)
    (unpadded : ∀ c, url.getLast? = some c → isPadding c = false)
    (extra : mark = '?' ∨ mark = '#') (rest : List Char)
    : fileOf (url ++ mark :: rest) = fileOf url := by
  have isUrl : isFileUrl url = true := List.isPrefixOf_iff_prefix.mpr starts
  have isLonger : isFileUrl (url ++ mark :: rest) = true :=
    List.isPrefixOf_iff_prefix.mpr (starts.trans (List.prefix_append _ _))
  have given : url ≠ [] := by
    rintro rfl
    exact absurd starts (by decide)
  rw [fileOf, fileOf, isUrl, isLonger, if_pos rfl, if_pos rfl, path, path, resolved, resolved,
    written_append_extra given unpadded extra rest]

/-- A text that is put together from the parts of a detour can stand for the file of a frame. -/
theorem Detour.isDescription {before removed after text : List Char}
    (detour : Detour before removed after) (given : text ≠ [])
    (drawn : ∀ c ∈ text, c ∈ before ++ removed ++ after ∨ c ∈ ['/', '.'])
    : FrameLine.isDescription text = true := by
  refine FrameLine.isDescription_iff.mpr ⟨given, fun c member => ?_⟩
  obtain part | mark := drawn c member
  · exact detour.oneLine c part
  · simp only [List.mem_cons, List.not_mem_nil, or_false] at mark
    obtain rfl | rfl := mark <;> decide

end FileUrl

-----------------------------------------------------------------------------------------
-- Frames
-----------------------------------------------------------------------------------------

/-- A text is written between a procedure name and a position, where it stands for the file. -/
structure NamedFrame where
  indent : String
  name : String
  line : String
  column : String
  blank : ∀ c ∈ indent.toList, Text.isBlank c = true
  indentOneLine : '\n' ∉ indent.toList
  named : FrameLine.isDescription name.toList = true
  uncut : ¬ [' ', '('] <:+: name.toList
  lineRun : FrameLine.IsRun line.toList
  columnRun : FrameLine.IsRun column.toList

namespace NamedFrame

variable (frame : NamedFrame)

/-- The stack text of the frame with the given text for its file. -/
def stack (text : String) : String :=
  frame.indent ++ "at " ++ frame.name ++ " (" ++ text ++ ":" ++ frame.line ++ ":" ++ frame.column
    ++ ")"

def parts (text : String) : FrameLine :=
  ⟨some frame.name.toList, text.toList, frame.line.toList, frame.column.toList⟩

/-- The frame of such a text is told from the file that the text names. -/
theorem framesOf_stack {text : String} (filed : FrameLine.isDescription text.toList = true)
    : framesOf (frame.stack text)
      = (FileUrl.fileOf text.toList).map fun file => [{
          procedure := frame.name
          file
          line := Frame.numberOf frame.line.toList
          column := Frame.numberOf frame.column.toList }] := by
  have printable : (frame.parts text).Printable := {
    named := by rintro _ ⟨⟩; exact frame.named
    uncutName := by rintro _ ⟨⟩; exact frame.uncut
    uncutFile := by rintro ⟨⟩
    filed
    lineRun := frame.lineRun
    columnRun := frame.columnRun }
  have printed : (frame.stack text).toList = (frame.parts text).print frame.indent.toList := by
    simp [stack, parts, FrameLine.print, FrameLine.description, FrameLine.closing]
  rw [framesOf_print_eq printable frame.blank frame.indentOneLine printed]
  simp [parts, Frame.withFile]

/-- Texts that name the same file, or none for the same reason, give the same outcome; and only
those do.
-/
theorem framesOf_stack_eq_iff {left right : String}
    (leftFiled : FrameLine.isDescription left.toList = true)
    (rightFiled : FrameLine.isDescription right.toList = true)
    : framesOf (frame.stack left) = framesOf (frame.stack right)
      ↔ FileUrl.fileOf left.toList = FileUrl.fileOf right.toList := by
  rw [frame.framesOf_stack leftFiled, frame.framesOf_stack rightFiled]
  cases FileUrl.fileOf left.toList <;> cases FileUrl.fileOf right.toList <;> simp [Except.map]

/-- A query and a fragment do not matter for the frame, by the file that the URL names. -/
theorem framesOf_append_extra {url mark rest : String} {c : Char} (marks : mark.toList = [c])
    (extra : c = '?' ∨ c = '#') (starts : "file:///".toList <+: url.toList)
    (unpadded : ∀ c, url.toList.getLast? = some c → 0x20 < c.toNat)
    (oneLine : ∀ c ∈ (url ++ rest).toList, Text.isLineTerminator c = false)
    : framesOf (frame.stack (url ++ mark ++ rest)) = framesOf (frame.stack url) := by
  have padded (c : Char) (last : url.toList.getLast? = some c) : FileUrl.isPadding c = false :=
    decide_eq_false (Nat.not_le.mpr (unpadded c last))
  have given : url.toList ≠ [] := by
    intro none
    rw [none] at starts
    exact absurd starts (by decide)
  have split : (url ++ mark ++ rest).toList = url.toList ++ c :: rest.toList := by simp [marks]
  have markLine : Text.isLineTerminator c = false := by
    obtain rfl | rfl := extra <;> decide
  obtain ⟨urlLine, restLine⟩ := List.forall_mem_append.mp (String.toList_append ▸ oneLine)
  have longLine : ∀ d ∈ (url ++ mark ++ rest).toList, Text.isLineTerminator d = false := by
    rw [split]
    exact List.forall_mem_append.mpr ⟨urlLine, List.forall_mem_cons.mpr ⟨markLine, restLine⟩⟩
  refine (frame.framesOf_stack_eq_iff (FrameLine.isDescription_iff.mpr ⟨by simp [split], longLine⟩)
    (FrameLine.isDescription_iff.mpr ⟨given, urlLine⟩)).mpr ?_
  rw [split]
  exact FileUrl.fileOf_append_extra starts padded extra rest.toList

section

variable {before removed after : String}
  (detour : FileUrl.Detour before.toList removed.toList after.toList)

include detour

/-- A detour that is not held does not matter for the frame exactly where no dots are kept. -/
theorem framesOf_long_iff (free : ¬ FileUrl.HeldAtRoot before.toList removed.toList)
    : let short := before ++ "/" ++ after
      let long := before ++ "/" ++ removed ++ "/../" ++ after
      framesOf (frame.stack long) = framesOf (frame.stack short)
      ↔ ¬ FileUrl.KeepsDots short.toList ∧ ¬ FileUrl.KeepsDots long.toList := by
  intro short long
  have shortForm : short.toList = before.toList ++ '/' :: after.toList := by simp [short]
  have longForm : long.toList = FileUrl.withDetour before.toList removed.toList after.toList := by
    simp [long, FileUrl.withDetour]
  have shortFiled : FrameLine.isDescription short.toList = true :=
    detour.isDescription (by simp [shortForm]) (by rw [shortForm]; grind)
  have longFiled : FrameLine.isDescription long.toList = true :=
    detour.isDescription (by simp [longForm, FileUrl.withDetour])
      (by rw [longForm, FileUrl.withDetour]; grind)
  rw [frame.framesOf_stack_eq_iff longFiled shortFiled, longForm, shortForm]
  constructor
  · intro same
    exact ⟨fun keeps => detour.fileOf_long_ne (Or.inl keeps) same,
      fun keeps => detour.fileOf_long_ne (Or.inr keeps) same⟩
  · rintro ⟨shortFree, longFree⟩
    exact detour.fileOf_long free shortFree longFree

/-- A detour that is held counts as if its double dot were not there, where no dots are kept. -/
theorem framesOf_long_of_held (stays : FileUrl.HeldAtRoot before.toList removed.toList)
    : let long := before ++ "/" ++ removed ++ "/../" ++ after
      let held := before ++ "/" ++ removed ++ "/" ++ after
      ¬ FileUrl.KeepsDots long.toList
      → ¬ FileUrl.KeepsDots held.toList
      → framesOf (frame.stack long) = framesOf (frame.stack held) := by
  intro long held longFree heldFree
  have longForm : long.toList = FileUrl.withDetour before.toList removed.toList after.toList := by
    simp [long, FileUrl.withDetour]
  have heldForm : held.toList
      = before.toList ++ '/' :: (removed.toList ++ '/' :: after.toList) := by
    simp [held]
  have longFiled : FrameLine.isDescription long.toList = true :=
    detour.isDescription (by simp [longForm, FileUrl.withDetour])
      (by rw [longForm, FileUrl.withDetour]; grind)
  have heldFiled : FrameLine.isDescription held.toList = true :=
    detour.isDescription (by simp [heldForm]) (by rw [heldForm]; grind)
  refine (frame.framesOf_stack_eq_iff longFiled heldFiled).mpr ?_
  rw [longForm] at longFree ⊢
  rw [heldForm] at heldFree ⊢
  exact detour.fileOf_long_of_held stays longFree heldFree

end

end NamedFrame

/-- Text that a file URL does not keep does not matter for a frame. A query and a fragment never do.
A detour does not, exactly as long as neither URL keeps its dots and the detour is not held at the
root; a detour that is held counts as if the double dot were not there.
-/
theorem framesOf_removed_text (frame : NamedFrame)
    : let outcome (url : String) := framesOf (frame.stack url)
      (∀ url rest : String,
        "file:///".toList <+: url.toList
        → (∀ c, url.toList.getLast? = some c → 0x20 < c.toNat)
        → (∀ c ∈ (url ++ rest).toList, Text.isLineTerminator c = false)
        → outcome (url ++ "?" ++ rest) = outcome url
          ∧ outcome (url ++ "#" ++ rest) = outcome url)
      ∧ ∀ before removed after : String,
          FileUrl.Detour before.toList removed.toList after.toList
          → let short := before ++ "/" ++ after
            let long := before ++ "/" ++ removed ++ "/../" ++ after
            let held := before ++ "/" ++ removed ++ "/" ++ after
            (¬ FileUrl.HeldAtRoot before.toList removed.toList
              → (outcome long = outcome short
                ↔ ¬ FileUrl.KeepsDots short.toList ∧ ¬ FileUrl.KeepsDots long.toList))
            ∧ (FileUrl.HeldAtRoot before.toList removed.toList
              → ¬ FileUrl.KeepsDots long.toList
              → ¬ FileUrl.KeepsDots held.toList
              → outcome long = outcome held) := by
  intro outcome
  refine ⟨?_, ?_⟩
  · intro url rest starts unpadded oneLine
    exact ⟨frame.framesOf_append_extra rfl (Or.inl rfl) starts unpadded oneLine,
      frame.framesOf_append_extra rfl (Or.inr rfl) starts unpadded oneLine⟩
  · intro before removed after detour short long held
    exact ⟨frame.framesOf_long_iff detour, frame.framesOf_long_of_held detour⟩

/-- Malformed escapes and escaped slashes are cut off and gone back from without being looked at;
a segment behind the root that starts as a drive letter is not gone back from.
-/
theorem framesOf_removed_text_malformed_escapes
    : framesOf "    at f (file:///a?%2F#%zz:1:2)" = framesOf "    at f (file:///a:1:2)"
      ∧ framesOf "    at f (file:///C|/%2F%zz/../b :1:2)" = framesOf "    at f (file:///C|/b :1:2)"
      ∧ framesOf "    at f (file:///C:x/../b:1:2)" = framesOf "    at f (file:///C:x/b:1:2)" := by
  let frame : NamedFrame := {
    indent := "    "
    name := "f"
    line := "1"
    column := "2"
    blank := List.all_eq_true.mp rfl
    indentOneLine := by decide
    named := rfl
    uncut := by decide
    lineRun := ⟨by decide, List.all_eq_true.mp rfl⟩
    columnRun := ⟨by decide, List.all_eq_true.mp rfl⟩ }
  obtain ⟨extra, detours⟩ := framesOf_removed_text frame
  have escaped : FileUrl.Detour "file:///C|".toList "%2F%zz".toList "b ".toList := {
    starts := by decide
    uncut := by decide
    within := by simp
    notSingle := by decide
    notDouble := by decide
    notDrive := by decide
    oneLine := by simp [Text.isLineTerminator, Text.lineTerminators] }
  have drive : FileUrl.Detour "file://".toList "C:x".toList "b".toList := {
    starts := by decide
    uncut := by decide
    within := by simp
    notSingle := by decide
    notDouble := by decide
    notDrive := by decide
    oneLine := by simp [Text.isLineTerminator, Text.lineTerminators] }
  refine ⟨?_, ?_, ?_⟩
  · exact (extra "file:///a" "%2F#%zz" (by decide) (by simp)
      (by simp [Text.isLineTerminator, Text.lineTerminators])).1
  · exact ((detours "file:///C|" "%2F%zz" "b " escaped).1 (by decide)).mpr (by decide)
  · exact (detours "file://" "C:x" "b" drive).2 (by decide) (by decide) (by decide)

/-- A detour matters behind a hidden name, where a plain path keeps its dots. -/
theorem framesOf_detour_behind_hidden_name
    : let parts (url : String) : FrameLine := ⟨some ['f'], url.toList, ['1', '2'], ['3', '4']⟩
      let short := "    at f (file:///a/.b/d:12:34)"
      let long := "    at f (file:///a/.b/c/../d:12:34)"
      FileUrl.Detour "file:///a/.b".toList "c".toList "d".toList
      ∧ (Text.lines short.toList).filterMap FrameLine.ofLine? = [parts "file:///a/.b/d"]
      ∧ (Text.lines long.toList).filterMap FrameLine.ofLine? = [parts "file:///a/.b/c/../d"]
      ∧ framesOf short = .ok [Frame.withFile (parts "file:///a/.b/d") "/a/.b/d"]
      ∧ framesOf long = .ok [Frame.withFile (parts "file:///a/.b/c/../d") "/a/.b/c/../d"]
      ∧ framesOf long ≠ framesOf short := by
  intro parts short long
  have detour : FileUrl.Detour "file:///a/.b".toList "c".toList "d".toList := {
    starts := by decide
    uncut := by decide
    within := by simp
    notSingle := by decide
    notDouble := by decide
    notDrive := by decide
    oneLine := by simp [Text.isLineTerminator, Text.lineTerminators] }
  have shortOnly : (Text.lines "    at f (file:///a/.b/d:12:34)".toList).filterMap
      FrameLine.ofLine? = [parts "file:///a/.b/d"] := by
    decide
  have longOnly : (Text.lines "    at f (file:///a/.b/c/../d:12:34)".toList).filterMap
      FrameLine.ofLine? = [parts "file:///a/.b/c/../d"] := by
    decide
  have shortFile : FileUrl.fileOf (parts "file:///a/.b/d").file = .ok "/a/.b/d" := by
    rw [FileUrl.fileOf, if_pos (by decide)]
    exact FileUrl.path_of_standing (by decide)
  have longFile : FileUrl.fileOf (parts "file:///a/.b/c/../d").file = .ok "/a/.b/c/../d" := by
    rw [FileUrl.fileOf, if_pos (by decide)]
    exact FileUrl.path_of_standing (by decide)
  have shortFrames := framesOf_of_fileOf shortOnly shortFile
  have longFrames := framesOf_of_fileOf longOnly longFile
  refine ⟨detour, shortOnly, longOnly, shortFrames, longFrames, fun same => ?_⟩
  have alike := Except.ok.inj (longFrames.symm.trans (same.trans shortFrames))
  have files : "/a/.b/c/../d" = "/a/.b/d" := congrArg Frame.file (List.cons.inj alike).1
  exact absurd files (by decide)

end CompilerReports
