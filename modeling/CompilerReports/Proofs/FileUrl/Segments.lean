import CompilerReports.FileUrl
import CompilerReports.Proofs.Text.Percent
import CompilerReports.Proofs.Text.Pieces

/-! Segments before and after decoding. Escaped slashes are refused, so decoding neither adds nor
removes a separator: the segments of the decoded path are the decoded segments. A segment that is
decoded to a dot segment is one of the spellings that the resolution of dot segments looks for.
-/

namespace CompilerReports.FileUrl

open Text (pieces utf8)
open Text.Percent (octet? octets?)

/-- (isSlash c) holds of the one separator of decoded paths. -/
def isSlash (c : Char) : Bool := c == '/'

theorem isSlash_eq_false_iff {c : Char}
    : isSlash c = false ↔ c ≠ '/' :=
  beq_eq_false_iff_ne

-----------------------------------------------------------------------------------------
-- Joined segments
-----------------------------------------------------------------------------------------

/-- Segments are joined by slashes to what stands before them, by induction on them. -/
theorem append_joined (first : List Char) (rest : List (List Char))
    : first ++ joined rest = ['/'].intercalate (first :: rest) := by
  induction rest generalizing first with
  | nil => simp [joined]
  | cons segment more ih =>
      have split : joined (segment :: more) = '/' :: (segment ++ joined more) := rfl
      rw [split, ih, List.intercalate_cons_cons, List.append_assoc, List.singleton_append]

/-- Segments without slashes are found again in the text that they are joined to. -/
theorem pieces_joined {segments : List (List Char)}
    (separated : ∀ segment ∈ segments, '/' ∉ segment)
    : pieces isSlash (joined segments) = [] :: segments := by
  have whole : joined segments = ['/'].intercalate ([] :: segments) := append_joined [] segments
  rw [whole]
  exact Text.pieces_intercalate '/' (List.cons_ne_nil _ _)
    (List.forall_mem_cons.mpr ⟨List.not_mem_nil, separated⟩)

/-- The segments of a text are joined to that text, behind a slash. -/
theorem joined_pieces (text : List Char)
    : joined (pieces isSlash text) = '/' :: text := by
  have whole : ['/'].intercalate (pieces isSlash text) = text := Text.intercalate_pieces '/' text
  cases found : pieces isSlash text with
  | nil => exact absurd found (Text.pieces_ne_nil isSlash text)
  | cons first rest =>
      have split : joined (first :: rest) = '/' :: (first ++ joined rest) := rfl
      rw [split, append_joined, ← found, whole]

/-- The segments of a path without backslashes are what stands between its slashes. -/
theorem segmentsOf_eq_pieces {path : List Char} (noBackslash : '\\' ∉ path)
    : segmentsOf path = pieces isSlash path := by
  refine Text.pieces_congr fun c member => ?_
  have other : c ≠ '\\' := fun same => noBackslash (same ▸ member)
  simp [isSeparator, isSlash, other]

-----------------------------------------------------------------------------------------
-- Slashes
-----------------------------------------------------------------------------------------

/-- The octet of the slash. -/
def slash : UInt8 := UInt8.ofNat '/'.toNat

/-- The octet of the slash is part of no other character. -/
theorem beq_slash_of_mem {c : Char} (elsewhere : isSlash c = false)
    : ∀ octet ∈ String.utf8EncodeChar c, (octet == slash) = false := by
  intro octet member
  refine beq_eq_false_iff_ne.mpr fun same => isSlash_eq_false_iff.mp elsewhere ?_
  rw [same] at member
  exact (Text.mem_utf8EncodeChar_iff_of_ascii (by decide)).mp member

/-- The UTF-8 form of a text is split at the slashes of the text, by induction on it. -/
theorem splitOnP_utf8 (text : List Char)
    : (utf8 text).splitOnP (· == slash) = (text.splitOnP isSlash).map utf8 := by
  induction text with
  | nil => rfl
  | cons c rest ih =>
      rw [Text.utf8_cons, List.splitOnP_cons_eq_if_modifyHead]
      split
      case isTrue here =>
        obtain rfl : c = '/' := beq_iff_eq.mp here
        have form : String.utf8EncodeChar '/' = [slash] := rfl
        rw [form, List.singleton_append, List.splitOnP_cons_eq_if_modifyHead, ih]
        rfl
      case isFalse elsewhere =>
        have unmarked := beq_slash_of_mem (Bool.eq_false_iff.mpr elsewhere)
        rw [Text.splitOnP_append_of_unmarked unmarked, ih]
        cases rest.splitOnP isSlash with
        | nil => rfl
        | cons piece more => simp [Text.utf8_cons]

/-- A digit is no slash. -/
theorem isSlash_of_writes {c : Char} {n : Nat} (writes : Text.Hex.Writes c n)
    : isSlash c = false := by
  refine isSlash_eq_false_iff.mpr ?_
  rintro rfl
  exact absurd writes.isAlphanum (by decide)

/-- Only a percent sign can start an escaped slash. -/
theorem hasEncodedSlash_cons {c : Char} (noEscape : c ≠ '%') (rest : List Char)
    : hasEncodedSlash (c :: rest) = hasEncodedSlash rest := by
  rw [hasEncodedSlash, beq_eq_false_iff_ne.mpr noEscape, Bool.false_and, Bool.false_or]

/-- The digits of an escape start no other escape, and only a slash is escaped as one. -/
theorem hasEncodedSlash_escape {high low : Char} {octet : UInt8}
    (escape : octet? high low = some octet) (rest : List Char)
    : hasEncodedSlash ('%' :: high :: low :: rest) = (octet == slash || hasEncodedSlash rest) := by
  obtain ⟨highWrites, lowWrites⟩ := Text.Percent.octet?_eq_some_iff.mp escape
  have digit {c : Char} {n : Nat} (writes : Text.Hex.Writes c n) : c ≠ '%' := by
    rintro rfl
    exact absurd writes.isAlphanum (by decide)
  have escaped : (['2', 'f'].isPrefixOf (high :: low :: rest)
      || ['2', 'F'].isPrefixOf (high :: low :: rest)) = (octet == slash) := by
    rw [Bool.eq_iff_iff]
    constructor
    case mp =>
      intro found
      simp only [List.isPrefixOf, Bool.and_true, Bool.or_eq_true, Bool.and_eq_true,
        beq_iff_eq] at found
      obtain ⟨rfl, rfl⟩ | ⟨rfl, rfl⟩ := found
      · exact beq_iff_eq.mpr (Option.some.inj escape).symm
      · exact beq_iff_eq.mpr (Option.some.inj escape).symm
    case mpr =>
      intro same
      obtain rfl : octet = slash := beq_iff_eq.mp same
      have two : high = '2' := by
        rcases highWrites.2 with rfl | rfl <;> rfl
      have fifteen : low = 'f' ∨ low = 'F' := lowWrites.2
      rcases fifteen with rfl | rfl <;> simp [List.isPrefixOf, two]
  rw [hasEncodedSlash, escaped, hasEncodedSlash_cons (digit highWrites),
    hasEncodedSlash_cons (digit lowWrites)]
  rfl

/-- One more piece of text without slashes keeps the splits alike, if it has octets of its own. -/
theorem splitOnP_octets_append (first : List Char) (head : List UInt8) {text : List Char}
    {octets : List UInt8}
    (noSlash : ∀ c ∈ first, isSlash c = false) (noOctet : ∀ octet ∈ head, (octet == slash) = false)
    (reads : ∀ rest, octets? (first ++ rest) = (octets? rest).map (head ++ ·))
    (alike : (octets.splitOnP (· == slash)).map some = (text.splitOnP isSlash).map octets?)
    : ((head ++ octets).splitOnP (· == slash)).map some
      = ((first ++ text).splitOnP isSlash).map octets? := by
  rw [Text.splitOnP_append_of_unmarked noSlash, Text.splitOnP_append_of_unmarked noOctet]
  cases pieces : text.splitOnP isSlash with
  | nil => exact absurd pieces (List.splitOnP_ne_nil isSlash text)
  | cons piece more =>
      rw [pieces, List.map_cons] at alike
      obtain ⟨part, parts, split, here, later⟩ := List.map_eq_cons_iff.mp alike
      rw [split, List.modifyHead_cons, List.modifyHead_cons, List.map_cons, List.map_cons, reads,
        ← here, later, Option.map_some]

/-- Decoding keeps the slashes where they are: the octets of a text without escaped slashes are
split as the text is, by the recursion of the decoder.
-/
theorem splitOnP_octets {text : List Char} {octets : List UInt8}
    (noSlash : hasEncodedSlash text = false) (read : octets? text = some octets)
    : (octets.splitOnP (· == slash)).map some = (text.splitOnP isSlash).map octets? := by
  induction text using Text.Percent.octets?.induct generalizing octets with
  | case1 =>
      obtain rfl : [] = octets := Option.some.inj read
      rfl
  | case2 high low more octet later laterRead escape ih =>
      rw [Text.Percent.octets?_escape, escape, laterRead] at read
      obtain rfl : octet :: later = octets := Option.some.inj read
      obtain ⟨highWrites, lowWrites⟩ := Text.Percent.octet?_eq_some_iff.mp escape
      rw [hasEncodedSlash_escape escape] at noSlash
      obtain ⟨noOctet, moreNoSlash⟩ := Bool.or_eq_false_iff.mp noSlash
      refine splitOnP_octets_append ['%', high, low] [octet] ?_ ?_ ?_ (ih moreNoSlash laterRead)
      · simp only [List.forall_mem_cons, isSlash_of_writes highWrites,
          isSlash_of_writes lowWrites, List.not_mem_nil, false_imp_iff, implies_true, and_true]
        rfl
      · exact List.forall_mem_singleton.mpr noOctet
      · intro rest
        exact (Text.Percent.octets?_escape high low rest).trans (by rw [escape]; rfl)
  -- An escape that lacks a digit stands for no octets.
  | case3 high low more malformed =>
      rw [Text.Percent.octets?_escape] at read
      obtain ⟨octet, escape, rest⟩ := Option.bind_eq_some_iff.mp read
      obtain ⟨later, laterRead, _⟩ := Option.map_eq_some_iff.mp rest
      exact (malformed octet later escape laterRead).elim
  | case4 rest short =>
      rcases rest with _ | ⟨high, _ | ⟨low, more⟩⟩
      · exact absurd read (Option.some_ne_none octets).symm
      · exact absurd read (Option.some_ne_none octets).symm
      · exact (short high low more rfl).elim
  | case5 c rest plain ih =>
      rw [Text.Percent.octets?_cons plain] at read
      obtain ⟨later, laterRead, rfl⟩ := Option.map_eq_some_iff.mp read
      have restNoSlash : hasEncodedSlash rest = false := hasEncodedSlash_cons plain rest ▸ noSlash
      have alike := ih restNoSlash laterRead
      cases here : isSlash c with
      | true =>
          obtain rfl : c = '/' := beq_iff_eq.mp here
          have form : String.utf8EncodeChar '/' = [slash] := rfl
          rw [form, List.singleton_append, List.splitOnP_cons_eq_if_modifyHead,
            List.splitOnP_cons_eq_if_modifyHead]
          exact congrArg (some [] :: ·) alike
      | false =>
          refine splitOnP_octets_append [c] (String.utf8EncodeChar c) ?_ ?_ ?_ alike
          · exact List.forall_mem_singleton.mpr here
          · exact beq_slash_of_mem here
          · exact fun _ => Text.Percent.octets?_cons plain _

/-- A text without escaped slashes is decoded to the path whose UTF-8 form its octets are. -/
theorem decode_eq_ok_iff {text : List Char} {path : String}
    : decode text = .ok path
      ↔ hasEncodedSlash text = false ∧ octets? text = some (utf8 path.toList) := by
  rw [← Text.Percent.decode?_eq_some_iff, decode]
  cases hasEncodedSlash text with
  | true => simp
  | false => cases Text.Percent.decode? text <;> simp

/-- A text without escapes is decoded to itself. -/
theorem decode_of_unescaped {text : List Char} (unescaped : '%' ∉ text)
    : decode text = .ok (String.ofList text) := by
  have noSlash : hasEncodedSlash text = false := by
    induction text with
    | nil => rfl
    | cons c rest ih =>
        obtain ⟨here, later⟩ : '%' ≠ c ∧ '%' ∉ rest := by
          simpa only [List.mem_cons, not_or] using unescaped
        rw [hasEncodedSlash_cons (Ne.symm here), ih later]
  refine decode_eq_ok_iff.mpr ⟨noSlash, ?_⟩
  rw [String.toList_ofList]
  exact Text.Percent.octets?_of_unescaped unescaped

/-- The segments of a text are decoded to the segments of the path that the text is decoded to. -/
theorem pieces_of_decode {text : List Char} {path : String} (read : decode text = .ok path)
    : (pieces isSlash text).map octets? = (pieces isSlash path.toList).map (some ∘ utf8) := by
  obtain ⟨noSlash, octets⟩ := decode_eq_ok_iff.mp read
  rw [Text.pieces_eq_splitOnP, Text.pieces_eq_splitOnP, ← splitOnP_octets noSlash octets,
    splitOnP_utf8, List.map_map]

/-- What joined segments are decoded to is joined from the segments that they are decoded to. -/
theorem exists_names_of_decode {segments : List (List Char)}
    (separated : ∀ segment ∈ segments, '/' ∉ segment) {path : String}
    (read : decode (joined segments) = .ok path)
    : ∃ names,
        path.toList = joined names
        ∧ pieces isSlash path.toList = [] :: names
        ∧ segments.map octets? = names.map (some ∘ utf8) := by
  have alike := pieces_of_decode read
  rw [pieces_joined separated, List.map_cons] at alike
  obtain ⟨first, names, split, empty, later⟩ := List.map_eq_cons_iff.mp alike.symm
  obtain rfl : first = [] := Text.utf8_injective (Option.some.inj empty)
  have whole := joined_pieces path.toList
  rw [split] at whole
  exact ⟨names, (List.cons.inj whole).2.symm, split, later.symm⟩

-----------------------------------------------------------------------------------------
-- Dots
-----------------------------------------------------------------------------------------

/-- The spellings of a dot: as it is, and escaped in either case. -/
def dotSpellings : List (List Char) := [['.'], ['%', '2', 'e'], ['%', '2', 'E']]

/-- A character that is lowered to another is that one or its upper case. -/
theorem eq_or_eq_of_toLower {c d : Char} (lowered : c.toLower = d)
    : c = d ∨ c = d.toUpper := by
  by_cases upper : 65 ≤ c.toNat ∧ c.toNat ≤ 90
  case pos =>
    have raised : ∀ k < 26, (Char.ofNat (65 + k)).toLower.toUpper = Char.ofNat (65 + k) := by
      decide
    have place : 65 + (c.toNat - 65) = c.toNat := by omega
    have back := raised (c.toNat - 65) (by omega)
    rw [place, Char.ofNat_toNat, lowered] at back
    exact Or.inr back.symm
  case neg =>
    have kept : c.toLower = c := dif_neg upper
    exact Or.inl (kept.symm.trans lowered)

/-- The spellings of a dot are what the two lower-case spellings are lowered from. -/
theorem mem_dotSpellings_iff {segment : List Char}
    : segment ∈ dotSpellings
      ↔ segment.map Char.toLower = ['.'] ∨ segment.map Char.toLower = ['%', '2', 'e'] := by
  constructor
  case mp =>
    intro member
    simp only [dotSpellings, List.mem_cons, List.not_mem_nil, or_false] at member
    rcases member with rfl | rfl | rfl <;> decide
  case mpr =>
    simp only [List.map_eq_cons_iff, List.map_eq_nil_iff]
    rintro (⟨c, _, rfl, dot, rfl⟩ | ⟨c, _, rfl, percent, d, _, rfl, two, e, _, rfl, letter, rfl⟩)
    · obtain rfl : c = '.' := by simpa using eq_or_eq_of_toLower dot
      exact List.mem_cons_self
    · obtain rfl : c = '%' := by simpa using eq_or_eq_of_toLower percent
      obtain rfl : d = '2' := by simpa using eq_or_eq_of_toLower two
      rcases eq_or_eq_of_toLower letter with rfl | rfl <;> decide

theorem isSingleDot_iff {segment : List Char}
    : isSingleDot segment = true ↔ segment ∈ dotSpellings := by
  rw [mem_dotSpellings_iff]
  simp only [isSingleDot, folded, List.contains_iff_mem, List.mem_cons, List.not_mem_nil, or_false,
    ← String.toList_inj, String.toList_ofList]
  rfl

theorem isDoubleDot_iff {segment : List Char}
    : isDoubleDot segment = true
      ↔ ∃ first ∈ dotSpellings, ∃ second ∈ dotSpellings, segment = first ++ second := by
  simp only [isDoubleDot, folded, List.contains_iff_mem, List.mem_cons, List.not_mem_nil, or_false,
    ← String.toList_inj, String.toList_ofList]
  constructor
  case mp =>
    have spelled {left right : List Char} (leftDot : left = ['.'] ∨ left = ['%', '2', 'e'])
        (rightDot : right = ['.'] ∨ right = ['%', '2', 'e'])
        (lowered : segment.map Char.toLower = left ++ right)
        : ∃ first ∈ dotSpellings, ∃ second ∈ dotSpellings, segment = first ++ second := by
      obtain ⟨first, second, rfl, rfl, rfl⟩ := List.map_eq_append_iff.mp lowered
      exact ⟨first, mem_dotSpellings_iff.mpr leftDot, second,
        mem_dotSpellings_iff.mpr rightDot, rfl⟩
    -- The four lower-case spellings of two dots are the pairs of those of one dot.
    rintro (lowered | lowered | lowered | lowered)
    · exact spelled (Or.inl rfl) (Or.inl rfl) lowered
    · exact spelled (Or.inl rfl) (Or.inr rfl) lowered
    · exact spelled (Or.inr rfl) (Or.inl rfl) lowered
    · exact spelled (Or.inr rfl) (Or.inr rfl) lowered
  case mpr =>
    rintro ⟨first, firstDot, second, secondDot, rfl⟩
    rw [List.map_append]
    rcases mem_dotSpellings_iff.mp firstDot with left | left <;>
      rcases mem_dotSpellings_iff.mp secondDot with right | right <;>
      rw [left, right] <;> decide

/-- The octet of the dot. -/
def dot : UInt8 := UInt8.ofNat '.'.toNat

/-- A text is read as a dot and more when it starts with a spelling of the dot. -/
theorem octets?_eq_dot_cons_iff {text : List Char} {octets : List UInt8}
    : octets? text = some (dot :: octets)
      ↔ ∃ spelling ∈ dotSpellings, ∃ rest,
          text = spelling ++ rest ∧ octets? rest = some octets := by
  constructor
  case mp =>
    intro read
    cases text with
    | nil => exact absurd (Option.some.inj read).symm (List.cons_ne_nil _ _)
    | cons c rest =>
        obtain ⟨high, low, more, octet, later, rfl, rfl, escape, laterRead, whole⟩ |
            ⟨later, _, laterRead, whole⟩ := Text.Percent.octets?_cons_cases read
        · obtain ⟨rfl, rfl⟩ := List.cons.inj whole
          obtain ⟨⟨_, two⟩, ⟨_, fourteen⟩⟩ := Text.Percent.octet?_eq_some_iff.mp escape
          have spelled : ['%', high, low] ∈ dotSpellings := by
            rcases two with rfl | rfl <;> rcases fourteen with rfl | rfl <;> decide
          exact ⟨_, spelled, more, rfl, laterRead⟩
        · have member : dot ∈ String.utf8EncodeChar c := by
            cases form : String.utf8EncodeChar c with
            | nil => exact absurd form String.utf8EncodeChar_ne_nil
            | cons octet more =>
                rw [form, List.cons_append] at whole
                exact (List.cons.inj whole).1 ▸ List.mem_cons_self
          obtain rfl : c = '.' := (Text.mem_utf8EncodeChar_iff_of_ascii (by decide)).mp member
          have same : octets = later := (List.cons.inj whole).2
          exact ⟨['.'], List.mem_cons_self, rest, rfl, same ▸ laterRead⟩
  case mpr =>
    rintro ⟨spelling, member, rest, rfl, read⟩
    simp only [dotSpellings, List.mem_cons, List.not_mem_nil, or_false] at member
    rcases member with rfl | rfl | rfl
    · exact (Text.Percent.octets?_cons (by decide) rest).trans (by rw [read]; rfl)
    · exact (Text.Percent.octets?_escape '2' 'e' rest).trans (by rw [read]; rfl)
    · exact (Text.Percent.octets?_escape '2' 'E' rest).trans (by rw [read]; rfl)

/-- A segment is a single dot when it is decoded to one dot. -/
theorem isSingleDot_iff_octets {segment : List Char}
    : isSingleDot segment = true ↔ octets? segment = some (utf8 ['.']) := by
  have form : utf8 ['.'] = [dot] := rfl
  rw [isSingleDot_iff, form, octets?_eq_dot_cons_iff]
  simp only [Text.Percent.octets?_eq_nil_iff]
  constructor
  · exact fun member => ⟨segment, member, [], (List.append_nil _).symm, rfl⟩
  · rintro ⟨spelling, member, _, rfl, rfl⟩
    rwa [List.append_nil]

/-- A segment is a double dot when it is decoded to two dots. -/
theorem isDoubleDot_iff_octets {segment : List Char}
    : isDoubleDot segment = true ↔ octets? segment = some (utf8 ['.', '.']) := by
  have form : utf8 ['.', '.'] = dot :: utf8 ['.'] := rfl
  rw [isDoubleDot_iff, form, octets?_eq_dot_cons_iff]
  constructor
  · rintro ⟨first, firstDot, second, secondDot, rfl⟩
    exact ⟨first, firstDot, second, rfl,
      isSingleDot_iff_octets.mp (isSingleDot_iff.mpr secondDot)⟩
  · rintro ⟨first, firstDot, second, rfl, read⟩
    exact ⟨first, firstDot, second, isSingleDot_iff.mp (isSingleDot_iff_octets.mpr read), rfl⟩

end CompilerReports.FileUrl
