import ManaCost.Amount.Layout
import ManaCost.Text.Quoted

namespace ManaCost.Report

/-!
# Reports as JSON

A report is a tree of records, lists and plain values.  It is written over several lines, one item a
line, in ASCII: other characters are written by their 16-bit units.  Amounts are written in full.
-/

/-- A tree of records, lists and plain values. -/
inductive Json where
  | null
  | bool (value : Bool)
  | integer (value : Int)
  | amount (value : Amount)
  | text (value : String)
  | list (items : List Json)
  | record (fields : List (String × Json))

namespace Json

/-- A 16-bit unit by its four hexadecimal digits. -/
def escapedUnit
    (unit : Nat) :
    List Char :=
  '\\' :: 'u' :: Text.hexadecimal 4 unit

/-- A character as it stands between double quotes. -/
def escapedChar
    (character : Char) :
    List Char :=
  let code := character.toNat
  if character = '"' ∨ character = '\\' then
    ['\\', character]
  else if character = '\n' then
    ['\\', 'n']
  else if character = '\r' then
    ['\\', 'r']
  else if character = '\t' then
    ['\\', 't']
  else if code = 0x8 then
    ['\\', 'b']
  else if code = 0xC then
    ['\\', 'f']
  else if 0x20 ≤ code ∧ code < 0x7F then
    [character]
  else if code < 0x10000 then
    escapedUnit code
  else
    escapedUnit (0xD800 + (code - 0x10000) / 0x400) ++
      escapedUnit (0xDC00 + (code - 0x10000) % 0x400)

/-- A text between double quotes. -/
def quotedText
    (text : String) :
    String :=
  String.ofList ('"' :: text.toList.flatMap escapedChar ++ ['"'])

/-- An amount as a number. -/
def number : Amount → String
  | .infinite => "Infinity"
  | value => value.text

/-- A line break and the margin of a level. -/
def breakLine
    (margin : Nat) :
    String :=
  String.ofList ('\n' :: List.replicate margin ' ')

/-- Items between brackets, one a line and indented; nothing stands between the brackets when there
are no items. -/
def enclose
    (opening closing : String)
    (indent level : Nat)
    (items : List String) :
    String :=
  if items.isEmpty then
    opening ++ closing
  else
    let separator := "," ++ breakLine (indent * (level + 1))
    opening ++ breakLine (indent * (level + 1)) ++ separator.intercalate items ++
      breakLine (indent * level) ++ closing

mutual

/-- A report at a level of nesting. -/
def writeAt
    (indent level : Nat) :
    Json → String
  | .null => "null"
  | .bool value => if value then "true" else "false"
  | .integer value => toString value
  | .amount value => number value
  | .text value => quotedText value
  | .list items => enclose "[" "]" indent level (writeItems indent (level + 1) items)
  | .record fields => enclose "\x7b" "\x7d" indent level (writeFields indent (level + 1) fields)

/-- The items of a list at a level of nesting. -/
def writeItems
    (indent level : Nat) :
    List Json → List String
  | [] => []
  | item :: rest => writeAt indent level item :: writeItems indent level rest

/-- The fields of a record at a level of nesting. -/
def writeFields
    (indent level : Nat) :
    List (String × Json) → List String
  | [] => []
  | (name, value) :: rest =>
      (quotedText name ++ ": " ++ writeAt indent level value) :: writeFields indent level rest

end

/-- A report with so many blanks a level. -/
def write
    (indent : Nat)
    (report : Json) :
    String :=
  writeAt indent 0 report

/-- A list of texts. -/
def texts
    (values : List String) :
    Json :=
  .list (values.map .text)

/-- A list of colors by their letters. -/
def letters
    (colors : List Char) :
    Json :=
  texts (colors.map String.singleton)

end Json

end ManaCost.Report
