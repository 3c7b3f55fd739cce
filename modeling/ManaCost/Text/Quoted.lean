import ManaCost.Text.Printable

namespace ManaCost.Text

/-!
# Quoted text

Messages show a text between quotes: single ones, unless the text holds a single quote and no
double one.  The quote in use and the backslash are written behind a backslash, line feed, carriage
return and tab by a letter, and other characters that are not printable by their code in lower-case
hexadecimal digits, two, four or eight of them.
-/

/-- The quote that stands around a text. -/
def quoteFor
    (text : List Char) :
    Char :=
  if text.contains '\'' && !text.contains '"' then '"' else '\''

/-- A code in at least `width` lower-case hexadecimal digits. -/
def hexadecimal
    (width code : Nat) :
    List Char :=
  let digits := Nat.toDigits 16 code
  List.replicate (width - digits.length) '0' ++ digits

/-- A character as it stands between quotes. -/
def quotedChar
    (quote character : Char) :
    List Char :=
  if character = quote ∨ character = '\\' then
    ['\\', character]
  else if character = '\n' then
    ['\\', 'n']
  else if character = '\r' then
    ['\\', 'r']
  else if character = '\t' then
    ['\\', 't']
  else if isPrintable character then
    [character]
  else
    let code := character.toNat
    if code < 0x100 then
      '\\' :: 'x' :: hexadecimal 2 code
    else if code < 0x10000 then
      '\\' :: 'u' :: hexadecimal 4 code
    else
      '\\' :: 'U' :: hexadecimal 8 code

/-- A text between quotes. -/
def quoted
    (text : String) :
    String :=
  let quote := quoteFor text.toList
  String.ofList (quote :: text.toList.flatMap (quotedChar quote) ++ [quote])

/-- The quotes give way to each other, and a soft hyphen is written by its code. -/
example :
    quoted "it's" = "\"it's\"" ∧ quoted "'\"" = "'\\'\"'" ∧
      quoted "a\\\n\u00ad\u2028½" = "'a\\\\\\n\\xad\\u2028½'" := by
  decide +kernel

end ManaCost.Text
