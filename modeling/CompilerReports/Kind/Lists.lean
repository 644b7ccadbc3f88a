/-! The report kinds by name. Each category lists its kinds, and the lists follow each other in
one flat order, in which every kind has its place.
-/

namespace CompilerReports.Kind

/-- Kinds of the compiler's own failures and statistics. -/
def internal : List String :=
  ["int-unknown", "int-fatal", "int-ice", "int-stack-trace", "int-missing-stack-trace",
    "int-gc-stats", "int-quit-called", "int-assert", "int-source", "int-success-x"]

def externalCommandLine : List String :=
  ["ext-invalid-hint", "ext-invalid-warning", "ext-invalid-command-line-option",
    "ext-only-all-off-supported", "ext-expected-on-or-off", "ext-expected-on-or-off-or-list",
    "ext-expected-cmd-argument", "ext-expected-no-cmd-argument", "ext-invalid-number",
    "ext-invalid-value", "ext-unexpected-value", "ext-invalid-path"]

/-- Kinds of errors in what the user hands to the compiler. -/
def externalError : List String :=
  "ext-unknown-c-compiler" :: externalCommandLine ++ ["ext-invalid-package-name"]

/-- Kinds about what the user hands to the compiler. -/
def external : List String := externalError ++ ["ext-deprecated", "ext-conf", "ext-path"]

def lexerError : List String :=
  ["lex-malformed-underscores", "lex-invalid-integer-prefix", "lex-invalid-integer-suffix",
    "lex-number-not-in-range", "lex-invalid-integer-literal"]

/-- Kinds about the characters of a source text. -/
def lexer : List String :=
  lexerError
    ++ ["lex-deprecated-octal-prefix", "lex-line-too-long", "lex-code-begin", "lex-code-end"]

/-- Kinds about the shape of a source text. -/
def parser : List String := ["par-invalid-indentation", "par-name"]

def semanticError : List String :=
  ["sem-user-error", "sem-custom-error", "sem-custom-print-msg-and-node-error",
    "sem-type-mismatch", "sem-custom-user-error", "sem-custom-global-error",
    "sem-call-type-mismatch", "sem-expression-cannot-be-called",
    "sem-wrong-number-of-arguments", "sem-ambiguous-call", "sem-calling-convention-mismatch",
    "sem-undeclared-identifier", "sem-expected-identifier", "sem-expected-identifier-in-expr",
    "sem-field-not-accessible", "sem-field-assignment-invalid",
    "sem-field-ok-but-assigned-value-invalid", "sem-object-constructor-incorrect",
    "sem-expression-has-no-type", "sem-int-literal-expected", "sem-string-literal-expected",
    "sem-invalid-pragma", "sem-illegal-custom-pragma", "sem-no-return-has-return",
    "sem-implicit-pragma-error", "sem-pragma-dynlib-requires-exportc", "sem-wrapped-error"]

def semanticWarning : List String := ["sem-user-warning", "sem-unknown-magic"]

def semanticHint : List String :=
  ["sem-user-hint", "sem-x-declared-but-not-used", "sem-duplicate-module-import",
    "sem-x-cannot-raise-y", "sem-conv-to-base-not-needed",
    "sem-conv-from-x-to-itself-not-needed", "sem-processing", "sem-processing-stmt",
    "sem-expr-always-x", "sem-condition-always-true", "sem-condition-always-false",
    "sem-pattern", "sem-cannot-make-sink", "sem-copies-to-sink", "sem-global-var",
    "sem-expand-macro", "sem-user-raw", "sem-extended-context", "sem-implicit-obj-conv"]

/-- Kinds about the meaning of a source text. -/
def semantic : List String := semanticError ++ semanticWarning ++ semanticHint

/-- Kinds about the commands that the compiler runs. -/
def command : List String := ["cmd-executing", "cmd-failed-execution", "cmd-cc"]

def debug : List String := ["dbg-test"]

def backendError : List String :=
  ["back-cannot-write-script", "back-cannot-write-mapping-file", "back-target-not-supported",
    "back-json-script-mismatch", "back-cannot-produce-assembly"]

def backendHint : List String :=
  ["back-produced-assembly", "back-linking", "back-compiling-extra-file", "back-use-dyn-lib"]

def backend : List String := backendError ++ backendHint

/-- All kinds in their flat order, in which the categories' runs leave no gaps. -/
def all : List String :=
  internal ++ external ++ lexer ++ parser ++ semantic ++ command ++ debug ++ backend

/-- (isKnown kind) holds of the names in the flat order. -/
def isKnown (kind : String) : Bool := all.contains kind

/-- The place of a kind in the flat order, counted from zero. -/
def ordinal? (kind : String) : Option Nat := all.idxOf? kind

end CompilerReports.Kind
