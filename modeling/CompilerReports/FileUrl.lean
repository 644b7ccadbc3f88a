import CompilerReports.Text.Percent
import CompilerReports.Text.Pieces
import CompilerReports.Text.Blank

/-! The absolute path that a file URL names. The URL is cleaned and cut before its query, its
segments are resolved, and what remains is decoded; text that is cut off or resolved away is
never looked at again. Dot segments are not resolved everywhere: a plain path in which a hidden
name comes before every other segment with a dot at its start is taken as it is written.
-/

namespace CompilerReports.FileUrl

/-- Why a file URL names no path. -/
inductive Error where
  | encodedSlash
  | malformedEscape
  deriving DecidableEq

def Error.message : Error → String
  | .encodedSlash => "File URL path must not include encoded / characters"
  | .malformedEscape => "URI malformed"

/-- The characters that every file URL without a host starts with. -/
def start : List Char := "file:///".toList

/-- (isFileUrl text) holds of the texts that start as a file URL does, in exactly that case. -/
def isFileUrl (text : List Char) : Bool := start.isPrefixOf text

-----------------------------------------------------------------------------------------
-- Cleaning

/-- The characters that do not count at the end of a URL: the space and the controls below it. -/
def isPadding (c : Char) : Bool := decide (c.toNat ≤ 0x20)

/-- The characters that do not count anywhere in a URL. -/
def isIgnored (c : Char) : Bool := c == '\t' || c == '\n' || c == '\r'

/-- The characters with which the query or the fragment starts. -/
def startsExtra (c : Char) : Bool := c == '?' || c == '#'

/-- The part of a URL that names the path, as it is written. -/
def written (url : List Char) : List Char :=
  ((Text.dropEndWhile isPadding url).filter fun c => !isIgnored c).takeWhile
    fun c => !startsExtra c

-----------------------------------------------------------------------------------------
-- Segments

/-- Slashes of both kinds separate segments. -/
def isSeparator (c : Char) : Bool := c == '/' || c == '\\'

/-- A segment in lower case, as far as its ASCII letters go. -/
def folded (segment : List Char) : String := String.ofList (segment.map Char.toLower)

/-- (isSingleDot segment) holds of the spellings of a segment that stays where it is. -/
def isSingleDot (segment : List Char) : Bool := [".", "%2e"].contains (folded segment)

/-- (isDoubleDot segment) holds of the spellings of a segment that goes one level up. -/
def isDoubleDot (segment : List Char) : Bool :=
  ["..", ".%2e", "%2e.", "%2e%2e"].contains (folded segment)

/-- (isDrive segment) holds of a drive letter: a letter with a colon or a bar. -/
def isDrive : List Char → Bool
  | [letter, mark] => letter.isAlpha && (mark == ':' || mark == '|')
  | _ => false

/-- Writes a drive letter that is marked by a bar with its colon; nothing else changes. -/
def withDriveColon : List Char → List Char
  | [letter, '|'] => if letter.isAlpha then [letter, ':'] else [letter, '|']
  | segment => segment

/-- (startsAsDrive segment) holds of a letter with a colon, whatever follows the two. -/
def startsAsDrive : List Char → Bool
  | letter :: ':' :: _ => letter.isAlpha
  | _ => false

/-- The path one level up. A lone segment that starts as a drive letter does has no level above
it.
-/
def parent (path : List (List Char)) : List (List Char) :=
  match path with
  | [only] => if startsAsDrive only then [only] else []
  | _ => path.dropLast

/-- The path after one more segment. A dot segment at the end leaves an empty segment behind,
and only the first segment can be a drive letter.
-/
def extend (path : List (List Char)) (segment : List Char) (isLast : Bool)
    : List (List Char) :=
  let ending := if isLast then [[]] else []
  if isDoubleDot segment then
    parent path ++ ending
  else if isSingleDot segment then
    path ++ ending
  else if path.isEmpty then
    [withDriveColon segment]
  else
    path ++ [segment]

/-- The path after all further segments. -/
def resolveFrom (path : List (List Char)) : List (List Char) → List (List Char)
  | [] => path
  | [segment] => extend path segment true
  | segment :: rest => resolveFrom (extend path segment false) rest

-----------------------------------------------------------------------------------------
-- Paths that stand as they are written

/-- The printable ASCII characters that a path does not hold as they are, or not always. -/
def reserved : List Char :=
  ['"', '#', '%', '<', '>', '?', '\\', '\x60', '\x7b', '\x7d']

/-- (isPlain c) holds of the characters that stand for themselves in every path: printable ASCII
without the reserved ones. The slash is plain, the backslash is not.
-/
def isPlain (c : Char) : Bool :=
  decide (0x20 < c.toNat) && decide (c.toNat < 0x7F) && !reserved.contains c

/-- (isDotted segment) holds of the segments that start with a dot. -/
def isDotted (segment : List Char) : Bool := segment.head? == some '.'

/-- (isHidden segment) holds of hidden names: a dot, then a character other than a dot. -/
def isHidden : List Char → Bool
  | '.' :: c :: _ => c != '.'
  | _ => false

/-- (hidesFirst segments) holds when the first segment is no drive letter and starts with no dot,
and of the other segments the first that starts with a dot is a hidden name.
-/
def hidesFirst : List (List Char) → Bool
  | [] => false
  | first :: later => !isDrive first && !isDotted first && (later.find? isDotted).any isHidden

def segmentsOf (path : List Char) : List (List Char) := Text.pieces isSeparator path

/-- (standsAsWritten path) holds of the written paths whose dot segments stay: they are plain,
and a hidden name comes first among their segments that start with a dot.
-/
def standsAsWritten (path : List Char) : Bool :=
  path.all isPlain && hidesFirst (segmentsOf path)

/-- The segments of a written path after resolution. -/
def resolve (path : List Char) : List (List Char) :=
  if standsAsWritten path then segmentsOf path else resolveFrom [] (segmentsOf path)

/-- The path as text, a slash before every segment. -/
def joined (path : List (List Char)) : List Char := path.flatMap fun segment => '/' :: segment

-----------------------------------------------------------------------------------------
-- Decoding

/-- (hasEncodedSlash text) holds when an escape of the slash occurs, in either case. -/
def hasEncodedSlash : List Char → Bool
  | [] => false
  | c :: rest =>
      (c == '%' && (['2', 'f'].isPrefixOf rest || ['2', 'F'].isPrefixOf rest))
        || hasEncodedSlash rest

def decode (text : List Char) : Except Error String :=
  if hasEncodedSlash text then
    .error .encodedSlash
  else
    match Text.Percent.decode? text with
    | some path => .ok path
    | none => .error .malformedEscape

/-- The resolved text of a file URL, before its escapes are decoded. -/
def resolved (url : List Char) : List Char :=
  joined (resolve ((written url).drop start.length))

def path (url : List Char) : Except Error String := decode (resolved url)

/-- The file that a text names: the path of a file URL, and any other text itself. -/
def fileOf (text : List Char) : Except Error String :=
  if isFileUrl text then path text else .ok (String.ofList text)

end CompilerReports.FileUrl
