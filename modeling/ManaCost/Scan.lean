import ManaCost.Symbol.Reader

namespace ManaCost

/-!
# Symbols in rules text

Rules text is scanned from left to right.  What stands in parentheses is reminder text and is left
out; what stands between braces is a span, which holds a symbol or is skipped.  A parenthesis or a
brace that is never closed ends the scan.
-/

/-- What a scan finds between braces. -/
inductive Span where
  | found (symbol : Symbol)
  | skipped (token : List Char) (fault : Fault)
  deriving DecidableEq

namespace Span

/-- The span of a token. -/
def ofToken
    (token : List Char) :
    Span :=
  match Symbol.read token with
  | .ok symbol => .found symbol
  | .error fault => .skipped token fault

/-- The symbol of a span. -/
def symbol? : Span → Option Symbol
  | .found symbol => some symbol
  | .skipped _ _ => none

end Span

/-- Where a scan stands in a text. -/
inductive ScanPlace where
  /-- In plain text. -/
  | outside
  /-- In reminder text. -/
  | aside
  /-- Between braces, behind the characters given, the last one first. -/
  | inside (reversed : List Char)
  deriving DecidableEq

/-- The spans that a scan finds from a place on. -/
def spansFrom : ScanPlace → List Char → List Span
  | _, [] => []
  | .outside, character :: rest =>
      if character = '(' then
        spansFrom .aside rest
      else if character = '{' then
        spansFrom (.inside []) rest
      else
        spansFrom .outside rest
  | .aside, character :: rest =>
      if character = ')' then
        spansFrom .outside rest
      else
        spansFrom .aside rest
  | .inside reversed, character :: rest =>
      if character = '}' then
        .ofToken reversed.reverse :: spansFrom .outside rest
      else
        spansFrom (.inside (character :: reversed)) rest

/-- The spans of a text. -/
def spans
    (text : List Char) :
    List Span :=
  spansFrom .outside text

/-- The symbols in a text, from left to right. -/
def symbolsIn
    (text : List Char) :
    List Symbol :=
  (spans text).filterMap Span.symbol?

/-- A scan as diagnostics show it. -/
def inspectScan
    (text : String) :
    String :=
  "SymbolScan(" ++ Text.quoted text ++ ")"

end ManaCost
