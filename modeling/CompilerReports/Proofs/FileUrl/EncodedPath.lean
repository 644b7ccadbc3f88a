import Mathlib.Data.List.TakeWhile
import CompilerReports.Proofs.FileUrl.DotSegments
import CompilerReports.Proofs.Frame.Printing

/-! File URLs of paths. A path is encoded by escaping the octets of all its reserved characters, in
digits of either case. The file URL of an encoded path reaches the decoder as it was written, so
that the file of its frame is the path itself.
-/

namespace CompilerReports

namespace FileUrl

open Text (pieces utf8)
open Text.Percent (octet? octets?)

-----------------------------------------------------------------------------------------
-- Encoded paths
-----------------------------------------------------------------------------------------

/-- (isUnreserved c) holds of the characters of a path that need no escape. -/
def isUnreserved (c : Char) : Bool := c.isAlphanum || ['/', '-', '_', '.', '~'].contains c

/-- The sign that starts an escape is escaped itself. -/
theorem ne_percent {c : Char} (unreserved : isUnreserved c = true)
    : c ≠ '%' := by
  rintro rfl
  exact absurd unreserved (by decide)

/-- (Escapes octets text) holds when each octet is escaped by two digits in either case. -/
inductive Escapes : List UInt8 → List Char → Prop where
  | nil : Escapes [] []
  | cons {octet : UInt8} {octets : List UInt8} {high low : Char} {text : List Char}
      (highDigit : Text.Hex.Writes high (octet.toNat / 16))
      (lowDigit : Text.Hex.Writes low (octet.toNat % 16))
      (later : Escapes octets text)
      : Escapes (octet :: octets) ('%' :: high :: low :: text)

/-- (Encodes path text) holds when unreserved characters are kept and all others are escaped. -/
inductive Encodes : List Char → List Char → Prop where
  | nil : Encodes [] []
  | kept {c : Char} {path text : List Char} (unreserved : isUnreserved c = true)
      (later : Encodes path text)
      : Encodes (c :: path) (c :: text)
  | escaped {c : Char} {path escapes text : List Char} (reserved : isUnreserved c = false)
      (spelled : Escapes (String.utf8EncodeChar c) escapes) (later : Encodes path text)
      : Encodes (c :: path) (escapes ++ text)

/-- A character of ASCII is escaped as one octet. -/
theorem Encodes.escaped_of_ascii {c high low : Char} {path text : List Char}
    (ascii : c.toNat < 0x80) (reserved : isUnreserved c = false)
    (highDigit : Text.Hex.Writes high (c.toNat / 16))
    (lowDigit : Text.Hex.Writes low (c.toNat % 16)) (later : Encodes path text)
    : Encodes (c :: path) ('%' :: high :: low :: text) := by
  have code : (UInt8.ofNat c.toNat).toNat = c.toNat := by
    rw [UInt8.toNat_ofNat']
    omega
  have spelled : Escapes (String.utf8EncodeChar c) ['%', high, low] := by
    rw [Text.utf8EncodeChar_of_ascii ascii]
    refine .cons ?_ ?_ .nil <;> rwa [code]
  exact .escaped reserved spelled later

theorem exists_escapes (octets : List UInt8)
    : ∃ text, Escapes octets text := by
  induction octets with
  | nil => exact ⟨[], .nil⟩
  | cons octet rest ih =>
      obtain ⟨text, later⟩ := ih
      have small : octet.toNat < 256 := octet.toNat_lt
      have highDigit : Text.Hex.Writes (Text.Hex.digit (octet.toNat / 16)) (octet.toNat / 16) :=
        ⟨by omega, Or.inl rfl⟩
      have lowDigit : Text.Hex.Writes (Text.Hex.digit (octet.toNat % 16)) (octet.toNat % 16) :=
        ⟨Nat.mod_lt _ (by decide), Or.inl rfl⟩
      exact ⟨_, .cons highDigit lowDigit later⟩

/-- Every path can be encoded. -/
theorem exists_encodes (path : List Char)
    : ∃ text, Encodes path text := by
  induction path with
  | nil => exact ⟨[], .nil⟩
  | cons c rest ih =>
      obtain ⟨text, later⟩ := ih
      cases unreserved : isUnreserved c with
      | true => exact ⟨_, .kept unreserved later⟩
      | false =>
          obtain ⟨escapes, spelled⟩ := exists_escapes (String.utf8EncodeChar c)
          exact ⟨_, .escaped unreserved spelled later⟩

-----------------------------------------------------------------------------------------
-- Decoding
-----------------------------------------------------------------------------------------

/-- Escapes are read as the octets they escape, by induction on them. -/
theorem Escapes.octets?_append {octets : List UInt8} {escapes : List Char}
    (spelled : Escapes octets escapes) (rest : List Char)
    : octets? (escapes ++ rest) = (octets? rest).map (octets ++ ·) := by
  induction spelled with
  | nil => simp
  | cons highDigit lowDigit _ ih =>
      have escape := Text.Percent.octet?_eq_some_iff.mpr ⟨highDigit, lowDigit⟩
      rw [List.cons_append, List.cons_append, List.cons_append, Text.Percent.octets?_escape,
        escape, ih, Option.bind_some, Option.map_map]
      rfl

/-- Escapes of octets other than that of the slash bring no escaped slash, by induction on them. -/
theorem Escapes.hasEncodedSlash_append {octets : List UInt8} {escapes : List Char}
    (spelled : Escapes octets escapes) (noSlash : ∀ octet ∈ octets, (octet == slash) = false)
    (rest : List Char)
    : hasEncodedSlash (escapes ++ rest) = hasEncodedSlash rest := by
  induction spelled with
  | nil => rfl
  | @cons octet octets high low text highDigit lowDigit _ ih =>
      obtain ⟨here, later⟩ := List.forall_mem_cons.mp noSlash
      have escape := Text.Percent.octet?_eq_some_iff.mpr ⟨highDigit, lowDigit⟩
      rw [List.cons_append, List.cons_append, List.cons_append, hasEncodedSlash_escape escape,
        here, ih later, Bool.false_or]

theorem Encodes.octets?_eq {path text : List Char} (encodes : Encodes path text)
    : octets? text = some (utf8 path) := by
  induction encodes with
  | nil => rfl
  | @kept c path text unreserved _ ih =>
      rw [Text.Percent.octets?_cons (ne_percent unreserved), ih, Text.utf8_cons, Option.map_some]
  | escaped _ spelled _ ih =>
      rw [spelled.octets?_append, ih, Text.utf8_cons, Option.map_some]

theorem Encodes.noEncodedSlash {path text : List Char} (encodes : Encodes path text)
    : hasEncodedSlash text = false := by
  induction encodes with
  | nil => rfl
  | @kept c path text unreserved _ ih =>
      rw [hasEncodedSlash_cons (ne_percent unreserved), ih]
  | @escaped c path escapes text reserved spelled _ ih =>
      have noSlash : isSlash c = false := by
        refine isSlash_eq_false_iff.mpr ?_
        rintro rfl
        exact absurd reserved (by decide)
      rw [spelled.hasEncodedSlash_append (beq_slash_of_mem noSlash), ih]

/-- An encoded path is decoded to the path. -/
theorem Encodes.decode_eq {path : String} {text : List Char} (encodes : Encodes path.toList text)
    : decode text = .ok path :=
  decode_eq_ok_iff.mpr ⟨encodes.noEncodedSlash, encodes.octets?_eq⟩

-----------------------------------------------------------------------------------------
-- URLs
-----------------------------------------------------------------------------------------

/-- (isUrlChar c) holds of the characters that the file URL of an encoded path is made of. -/
def isUrlChar (c : Char) : Bool := isUnreserved c || ['%', ':'].contains c

/-- Characters at or below the space, and those at or above the delete control, are escaped. -/
theorem isUrlChar_range {c : Char} (fits : isUrlChar c = true)
    : 0x20 < c.toNat ∧ c.toNat < 0x7F := by
  have alphanum (alphanumeric : c.isAlphanum = true) : 0x20 < c.toNat ∧ c.toNat < 0x7F := by
    obtain letter | digit : c.isAlpha = true ∨ c.isDigit = true :=
      Bool.or_eq_true_iff.mp alphanumeric
    · obtain upper | lower : c.isUpper = true ∨ c.isLower = true := Bool.or_eq_true_iff.mp letter
      · have range : 65 ≤ c.toNat ∧ c.toNat ≤ 90 := of_decide_eq_true upper
        omega
      · obtain ⟨above, below⟩ := Bool.and_eq_true_iff.mp lower
        have first : 97 ≤ c.toNat := of_decide_eq_true above
        have last : c.toNat ≤ 122 := of_decide_eq_true below
        omega
    · obtain ⟨above, below⟩ := Bool.and_eq_true_iff.mp digit
      have first : 48 ≤ c.toNat := of_decide_eq_true above
      have last : c.toNat ≤ 57 := of_decide_eq_true below
      omega
  simp only [isUrlChar, isUnreserved, List.contains_iff_mem, Bool.or_eq_true, List.mem_cons,
    List.not_mem_nil, or_false] at fits
  rcases fits with (letter | rfl | rfl | rfl | rfl | rfl) | rfl | rfl
  · exact alphanum letter
  all_goals decide

theorem Escapes.isUrlChar {octets : List UInt8} {escapes : List Char}
    (spelled : Escapes octets escapes)
    : ∀ c ∈ escapes, isUrlChar c = true := by
  have digit {c : Char} {n : Nat} (writes : Text.Hex.Writes c n) : FileUrl.isUrlChar c = true := by
    simp [FileUrl.isUrlChar, isUnreserved, writes.isAlphanum]
  induction spelled with
  | nil => exact List.forall_mem_nil _
  | cons highDigit lowDigit _ ih =>
      exact List.forall_mem_cons.mpr ⟨rfl, List.forall_mem_cons.mpr
        ⟨digit highDigit, List.forall_mem_cons.mpr ⟨digit lowDigit, ih⟩⟩⟩

theorem Encodes.isUrlChar {path text : List Char} (encodes : Encodes path text)
    : ∀ c ∈ text, isUrlChar c = true := by
  induction encodes with
  | nil => exact List.forall_mem_nil _
  | kept unreserved _ ih =>
      exact List.forall_mem_cons.mpr ⟨by simp [FileUrl.isUrlChar, unreserved], ih⟩
  | escaped _ spelled _ ih => exact List.forall_mem_append.mpr ⟨spelled.isUrlChar, ih⟩

/-- Nothing is cleaned away from a URL of such characters, and nothing is cut off. -/
theorem written_of_isUrlChar {url : List Char} (clean : ∀ c ∈ url, isUrlChar c = true)
    : written url = url := by
  have kept : Text.dropEndWhile isPadding url = url := by
    have unpadded : url.reverse.dropWhile isPadding = url.reverse := by
      refine List.dropWhile_eq_self_iff.mpr fun given padding => ?_
      have range := isUrlChar_range (clean _ (List.mem_reverse.mp (List.getElem_mem given)))
      have low := of_decide_eq_true padding
      omega
    rw [Text.dropEndWhile, unpadded, List.reverse_reverse]
  have counted : url.filter (fun c => !isIgnored c) = url := by
    refine List.filter_eq_self.mpr fun c member => ?_
    have fits := clean c member
    refine Bool.not_eq_true' _ ▸ Bool.eq_false_iff.mpr fun ignored => ?_
    simp only [isIgnored, Bool.or_eq_true, beq_iff_eq] at ignored
    obtain (rfl | rfl) | rfl := ignored <;> exact absurd fits (by decide)
  have uncut : url.takeWhile (fun c => !startsExtra c) = url := by
    refine List.takeWhile_eq_self_iff.mpr fun c member => ?_
    have fits := clean c member
    refine Bool.not_eq_true' _ ▸ Bool.eq_false_iff.mpr fun extra => ?_
    simp only [startsExtra, Bool.or_eq_true, beq_iff_eq] at extra
    obtain rfl | rfl := extra <;> exact absurd fits (by decide)
  rw [written, kept, counted, uncut]

/-- A segment that is no dot segment is put at the end of the path. -/
theorem extend_of_name {segment : List Char}
    (name : isSingleDot segment = false ∧ isDoubleDot segment = false) (path : List (List Char))
    (isLast : Bool)
    : extend path segment isLast
      = if path.isEmpty then [withDriveColon segment] else path ++ [segment] := by
  obtain ⟨double, _⟩ | ⟨single, _⟩ | ⟨_, _, after⟩ := extend_cases path segment isLast
  · exact absurd double (Bool.eq_false_iff.mp name.2)
  · exact absurd single (Bool.eq_false_iff.mp name.1)
  · exact after

/-- Segments that are no dot segments are put at the end in their order, by induction on them. -/
theorem resolveFrom_of_names {segments : List (List Char)}
    (names : ∀ segment ∈ segments, isSingleDot segment = false ∧ isDoubleDot segment = false)
    {path : List (List Char)} (given : path ≠ [])
    : resolveFrom path segments = path ++ segments := by
  induction segments generalizing path with
  | nil => exact (List.append_nil path).symm
  | cons segment rest ih =>
      obtain ⟨here, later⟩ := List.forall_mem_cons.mp names
      have put (isLast : Bool) : extend path segment isLast = path ++ [segment] := by
        rw [extend_of_name here, if_neg (by simpa using given)]
      cases rest with
      | nil => exact put true
      | cons next more =>
          have longer : path ++ [segment] ≠ [] :=
            List.append_ne_nil_of_right_ne_nil path (List.cons_ne_nil _ _)
          rw [resolveFrom, put, ih later longer, List.append_assoc, List.singleton_append]
          exact List.cons_ne_nil _ _

/-- Segments that are no dot segments are their own resolution, if the first needs no colon. -/
theorem resolveFrom_nil_of_names {segments : List (List Char)}
    (names : ∀ segment ∈ segments, isSingleDot segment = false ∧ isDoubleDot segment = false)
    (unmarked : ∀ first, segments.head? = some first → withDriveColon first = first)
    : resolveFrom [] segments = segments := by
  cases segments with
  | nil => rfl
  | cons first rest =>
      obtain ⟨here, later⟩ := List.forall_mem_cons.mp names
      have put (isLast : Bool) : extend [] first isLast = [first] := by
        rw [extend_of_name here, unmarked first rfl]
        rfl
      cases rest with
      | nil => exact put true
      | cons next more =>
          rw [resolveFrom, put, resolveFrom_of_names later (List.cons_ne_nil _ _)]
          · rfl
          · exact List.cons_ne_nil _ _

/-- A segment without a bar needs no colon. -/
theorem withDriveColon_of_noBar {segment : List Char} (noBar : '|' ∉ segment)
    : withDriveColon segment = segment := by
  unfold withDriveColon
  split
  case h_1 letter => exact absurd (List.mem_cons_of_mem letter List.mem_cons_self) noBar
  case h_2 => rfl

/-- The segments of an encoded path are no dot segments, since those of the path are none. -/
theorem Encodes.names {path : String} {text : List Char} (encodes : Encodes path.toList text)
    (dotFree : DotFree path)
    : ∀ segment ∈ pieces isSlash text,
        isSingleDot segment = false ∧ isDoubleDot segment = false := by
  intro segment member
  have decoded : octets? segment ∈ (pieces isSlash path.toList).map (some ∘ utf8) :=
    pieces_of_decode encodes.decode_eq ▸ List.mem_map_of_mem member
  obtain ⟨name, named, same⟩ := List.mem_map.mp decoded
  obtain ⟨notDot, notDots⟩ := dotFree name named
  constructor
  · refine Bool.eq_false_iff.mpr fun single => notDot ?_
    exact Text.utf8_injective (Option.some.inj (same.trans (isSingleDot_iff_octets.mp single)))
  · refine Bool.eq_false_iff.mpr fun double => notDots ?_
    exact Text.utf8_injective (Option.some.inj (same.trans (isDoubleDot_iff_octets.mp double)))

/-- The slash is encoded as it is. -/
theorem Encodes.exists_slash {path text : List Char} (encodes : Encodes ('/' :: path) text)
    : ∃ rest, text = '/' :: rest := by
  cases encodes with
  | kept _ _ => exact ⟨_, rfl⟩
  | escaped reserved _ _ => exact absurd reserved (by decide)

/-- The text of an encoded path is its own resolution. -/
theorem Encodes.resolved_eq {path : String} {rest : List Char}
    (encodes : Encodes path.toList ('/' :: rest)) (dotFree : DotFree path)
    : resolved (start ++ rest) = '/' :: rest := by
  have fits : ∀ c ∈ rest, FileUrl.isUrlChar c = true :=
    fun c member => encodes.isUrlChar c (List.mem_cons_of_mem _ member)
  have whole : written (start ++ rest) = start ++ rest :=
    written_of_isUrlChar (List.forall_mem_append.mpr ⟨List.all_eq_true.mp rfl, fits⟩)
  have behind : (start ++ rest).drop start.length = rest := List.drop_left
  have noBackslash : '\\' ∉ rest := fun member => absurd (fits _ member) (by decide)
  have noBar : ∀ segment ∈ pieces isSlash rest, '|' ∉ segment := by
    intro segment member bar
    have inside : '|' ∈ joined (pieces isSlash rest) :=
      List.mem_flatMap.mpr ⟨segment, member, List.mem_cons_of_mem _ bar⟩
    rw [joined_pieces] at inside
    exact absurd (encodes.isUrlChar _ inside) (by decide)
  have names : ∀ segment ∈ pieces isSlash rest,
      isSingleDot segment = false ∧ isDoubleDot segment = false := by
    have behindSlash : pieces isSlash ('/' :: rest) = [] :: pieces isSlash rest := rfl
    exact (List.forall_mem_cons.mp (behindSlash ▸ encodes.names dotFree)).2
  -- Whether the path stands as it is written does not matter where nothing is resolved.
  have unmarked : ∀ first, (pieces isSlash rest).head? = some first
      → withDriveColon first = first :=
    fun first found => withDriveColon_of_noBar (noBar first (List.mem_of_head? found))
  have settled : resolve rest = pieces isSlash rest := by
    rw [resolve, segmentsOf_eq_pieces noBackslash, resolveFrom_nil_of_names names unmarked,
      ite_self]
  rw [resolved, whole, behind, settled, joined_pieces]

/-- The file URL of an encoded path names the path. -/
theorem Encodes.fileOf_eq {path : String} {text : List Char} (encodes : Encodes path.toList text)
    (absolute : path.toList.head? = some '/') (dotFree : DotFree path)
    : fileOf ("file://".toList ++ text) = .ok path := by
  obtain ⟨rest, rfl⟩ : ∃ rest, text = '/' :: rest := by
    obtain ⟨more, form⟩ := List.head?_eq_some_iff.mp absolute
    rw [form] at encodes
    exact encodes.exists_slash
  have form : "file://".toList ++ '/' :: rest = start ++ rest := rfl
  have isUrl : isFileUrl (start ++ rest) = true :=
    List.isPrefixOf_iff_prefix.mpr (List.prefix_append start rest)
  rw [form, fileOf, if_pos isUrl, FileUrl.path, encodes.resolved_eq dotFree]
  exact encodes.decode_eq

end FileUrl

-----------------------------------------------------------------------------------------
-- Frames
-----------------------------------------------------------------------------------------

/-- A printed frame line is one frame, or the error of its file. -/
theorem framesOf_print_eq {parts : FrameLine} (printable : parts.Printable) {indent : List Char}
    (blank : ∀ c ∈ indent, Text.isBlank c = true) (oneLine : '\n' ∉ indent) {stack : String}
    (printed : stack.toList = parts.print indent)
    : framesOf stack = (FileUrl.fileOf parts.file).map fun file => [Frame.withFile parts file] := by
  have single : '\n' ∉ stack.toList := printed ▸ printable.oneLine_print oneLine
  rw [framesOf_of_line single, printed, printable.ofLine?_print blank, Option.toList_some,
    List.mapM_cons, Frame.ofFrameLine]
  cases FileUrl.fileOf parts.file <;> rfl

/-- A printed frame line is one frame, if its file can be told. -/
theorem framesOf_print {parts : FrameLine} (printable : parts.Printable) {indent : List Char}
    (blank : ∀ c ∈ indent, Text.isBlank c = true) (oneLine : '\n' ∉ indent) {stack file : String}
    (printed : stack.toList = parts.print indent) (found : FileUrl.fileOf parts.file = .ok file)
    : framesOf stack = .ok [Frame.withFile parts file] := by
  rw [framesOf_print_eq printable blank oneLine printed, found]
  rfl

/-- A frame line and a bare line with the file URL of an encoded path are one frame each, whose file
is the path, whatever characters the path holds.
-/
theorem framesOf_encoded_path {path text line column : String}
    (absolute : path.toList.head? = some '/') (dotFree : FileUrl.DotFree path)
    (encodes : FileUrl.Encodes path.toList text.toList) (lineRun : FrameLine.IsRun line.toList)
    (columnRun : FrameLine.IsRun column.toList)
    : framesOf ("    at f (file://" ++ text ++ ":" ++ line ++ ":" ++ column ++ ")")
        = .ok [{
            procedure := "f"
            file := path
            line := Frame.numberOf line.toList
            column := Frame.numberOf column.toList }]
      ∧ framesOf ("    at file://" ++ text ++ ":" ++ line ++ ":" ++ column)
        = .ok [{
            procedure := "<anonymous>"
            file := path
            line := Frame.numberOf line.toList
            column := Frame.numberOf column.toList }] := by
  -- The URL holds neither a space nor a line terminator, so it can stand in both kinds of lines.
  let url := "file://".toList ++ text.toList
  have found : FileUrl.fileOf url = .ok path := encodes.fileOf_eq absolute dotFree
  have clean : ∀ c ∈ url, FileUrl.isUrlChar c = true :=
    List.forall_mem_append.mpr ⟨List.all_eq_true.mp rfl, encodes.isUrlChar⟩
  have filed : FrameLine.isDescription url = true := by
    refine FrameLine.isDescription_iff.mpr ⟨List.cons_ne_nil _ _, fun c member => ?_⟩
    refine Bool.eq_false_iff.mpr fun terminator => ?_
    have fits := clean c member
    simp only [Text.isLineTerminator, Text.lineTerminators, List.contains_iff_mem, List.mem_cons,
      List.not_mem_nil, or_false] at terminator
    obtain rfl | rfl | rfl | rfl := terminator <;> exact absurd fits (by decide)
  have noSpace : ' ' ∉ url := fun member => absurd (clean ' ' member) (by decide)
  have uncut : ¬ [' ', '('] <:+: url := fun cut => noSpace (cut.subset List.mem_cons_self)
  have indentBlank : ∀ c ∈ [' ', ' ', ' ', ' '], Text.isBlank c = true := List.all_eq_true.mp rfl
  constructor
  · let parts : FrameLine := ⟨some ['f'], url, line.toList, column.toList⟩
    have printable : parts.Printable := {
      named := by rintro _ ⟨⟩; rfl
      uncutName := by rintro _ ⟨⟩; decide
      uncutFile := by rintro ⟨⟩
      filed
      lineRun
      columnRun }
    refine framesOf_print printable indentBlank (by decide) ?_ found
    simp [parts, url, FrameLine.print, FrameLine.description, FrameLine.closing]
  · let parts : FrameLine := ⟨none, url, line.toList, column.toList⟩
    have printable : parts.Printable := {
      named := by rintro _ ⟨⟩
      uncutName := by rintro _ ⟨⟩
      uncutFile := fun _ => uncut
      filed
      lineRun
      columnRun }
    refine framesOf_print printable indentBlank (by decide) ?_ found
    simp [parts, url, FrameLine.print, FrameLine.description, FrameLine.closing]

/-- A path may hold what looks like a drive letter, an escape, a query or a procedure. -/
theorem framesOf_encoded_path_misleading_characters
    : let path := "/C:/%? (\n//é"
      let text := "/C%3A/%25%3f%20%28%0a//%C3%a9"
      framesOf ("    at f (file://" ++ text ++ ":" ++ "10" ++ ":" ++ "2" ++ ")")
        = .ok [⟨"f", path, Frame.numberOf ['1', '0'], Frame.numberOf ['2']⟩]
      ∧ framesOf ("    at file://" ++ text ++ ":" ++ "10" ++ ":" ++ "2")
        = .ok [⟨"<anonymous>", path, Frame.numberOf ['1', '0'], Frame.numberOf ['2']⟩] := by
  intro path text
  have accented : FileUrl.Escapes (String.utf8EncodeChar 'é') ['%', 'C', '3', '%', 'a', '9'] :=
    .cons (by decide) (by decide) (.cons (by decide) (by decide) .nil)
  have encodes : FileUrl.Encodes path.toList text.toList := by
    have pathForm : path.toList
        = ['/', 'C', ':', '/', '%', '?', ' ', '(', '\n', '/', '/', 'é'] := by
      decide
    have textForm : text.toList
        = ['/', 'C', '%', '3', 'A', '/', '%', '2', '5', '%', '3', 'f', '%', '2', '0', '%', '2', '8',
          '%', '0', 'a', '/', '/', '%', 'C', '3', '%', 'a', '9'] := by
      decide
    rw [pathForm, textForm]
    refine .kept rfl (.kept rfl ?_)
    refine .escaped_of_ascii (by decide) rfl (by decide) (by decide) (.kept rfl ?_)
    refine .escaped_of_ascii (by decide) rfl (by decide) (by decide) ?_
    refine .escaped_of_ascii (by decide) rfl (by decide) (by decide) ?_
    refine .escaped_of_ascii (by decide) rfl (by decide) (by decide) ?_
    refine .escaped_of_ascii (by decide) rfl (by decide) (by decide) ?_
    refine .escaped_of_ascii (by decide) rfl (by decide) (by decide) ?_
    exact .kept rfl (.kept rfl (.escaped rfl accented .nil))
  have absolute : path.toList.head? = some '/' := by decide
  have dotFree : FileUrl.DotFree path := by decide
  exact framesOf_encoded_path absolute dotFree encodes ⟨by decide, List.all_eq_true.mp rfl⟩
    ⟨by decide, List.all_eq_true.mp rfl⟩

end CompilerReports
