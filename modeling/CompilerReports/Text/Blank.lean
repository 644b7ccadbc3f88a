/-! Blank characters and line terminators, and the trimming of a text to what stands between
its outer blanks. The blank characters are given as a table of code point ranges.
-/

namespace CompilerReports.Text

/-- The closed ranges of blank code points, ascending and apart: the tab to carriage return
controls, the space characters, the two separator characters and the byte order mark.
-/
def blankRanges : List (Nat × Nat) :=
  [(0x09, 0x0D), (0x20, 0x20), (0xA0, 0xA0), (0x1680, 0x1680), (0x2000, 0x200A),
    (0x2028, 0x2029), (0x202F, 0x202F), (0x205F, 0x205F), (0x3000, 0x3000),
    (0xFEFF, 0xFEFF)]

/-- (isBlank c) holds when `c` lies in one of the blank ranges. -/
def isBlank (c : Char) : Bool :=
  blankRanges.any fun range => decide (range.1 ≤ c.toNat) && decide (c.toNat ≤ range.2)

/-- The characters that end a line: line feed, carriage return, and the line and paragraph
separators.
-/
def lineTerminators : List Char := ['\n', '\r', '\u2028', '\u2029']

def isLineTerminator (c : Char) : Bool := lineTerminators.contains c

/-- Drops the longest run of unwanted characters at the end of a text. -/
def dropEndWhile (unwanted : Char → Bool) (text : List Char) : List Char :=
  (text.reverse.dropWhile unwanted).reverse

/-- A text without its outer blanks. -/
def trimBlanks (text : List Char) : List Char :=
  dropEndWhile isBlank (text.dropWhile isBlank)

/-- A text splits at its end into what is kept and a run of unwanted characters. -/
theorem dropEndWhile_append_takeWhile (unwanted : Char → Bool) (text : List Char)
    : dropEndWhile unwanted text ++ (text.reverse.takeWhile unwanted).reverse = text := by
  rw [dropEndWhile, ← List.reverse_append, List.takeWhile_append_dropWhile,
    List.reverse_reverse]

end CompilerReports.Text
