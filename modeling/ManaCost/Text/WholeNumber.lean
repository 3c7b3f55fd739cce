import ManaCost.Text.Blank

namespace ManaCost.Text

/-!
# Whole numbers in configuration texts

A whole number is written in ASCII digits, which single underscores may part.  A sign may stand in
front of the digits, a point with nothing but zeros behind them, and white space around all.
Leading zeros do not count.
-/

/-- The digits of a text in which single underscores may part them. -/
def ungrouped? : List Char → Option (List Char)
  | [] => none
  | [digit] => if digit.isDigit then some [digit] else none
  | digit :: '_' :: rest =>
      if digit.isDigit then (ungrouped? rest).map (digit :: ·) else none
  | digit :: rest =>
      if digit.isDigit then (ungrouped? rest).map (digit :: ·) else none

/-- A text without a point that only zeros follow, of which there must be one. -/
def withoutZeroFraction
    (text : List Char) :
    List Char :=
  match text.dropWhile (· != '.') with
  | '.' :: zero :: zeros =>
      if (zero :: zeros).all (· == '0') then text.takeWhile (· != '.') else text
  | _ => text

/-- The digits of a whole number without its sign. -/
def wholeDigits?
    (text : List Char) :
    Option (List Char) :=
  ungrouped? (withoutZeroFraction text)

/-- The whole number that a text writes without a sign. -/
def magnitude?
    (text : List Char) :
    Option Nat :=
  (wholeDigits? text).map fun digits => Nat.ofDigitChars 10 digits 0

/-- The whole number that a text writes. -/
def wholeNumber?
    (text : List Char) :
    Option Int :=
  match trim isWhiteSpace text with
  | '-' :: rest => (magnitude? rest).map fun number => -(number : Int)
  | '+' :: rest => (magnitude? rest).map Int.ofNat
  | rest => (magnitude? rest).map Int.ofNat

/-- Digits may be parted by underscores, but not by two at a time. -/
example :
    wholeNumber? ['0', '1', '_', '0', '.', '0'] = some 10 ∧
      wholeNumber? ['1', '_', '_', '0'] = none := by
  decide +kernel

/-- A point needs a zero behind it, and a sign a digit. -/
example :
    wholeNumber? ['4', '.'] = none ∧ wholeNumber? ['-', ' ', '4'] = none := by
  decide +kernel

end ManaCost.Text
