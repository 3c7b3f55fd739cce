namespace ManaCost.Text

/-!
# Blank characters

White space is what Unicode 14 calls so.  Blank are white space and the four information separators.
-/

/-- The closed ranges of white space, in ascending order. -/
def whiteSpaceRanges : List (Nat × Nat) := [
  (0x9, 0xD), (0x20, 0x20), (0x85, 0x85), (0xA0, 0xA0), (0x1680, 0x1680), (0x2000, 0x200A),
  (0x2028, 0x2029), (0x202F, 0x202F), (0x205F, 0x205F), (0x3000, 0x3000)]

/-- The character is white space. -/
def isWhiteSpace
    (character : Char) :
    Bool :=
  whiteSpaceRanges.any fun range => range.1 ≤ character.toNat && character.toNat ≤ range.2

/-- The character separates files, groups, records or units of information. -/
def isSeparator
    (character : Char) :
    Bool :=
  0x1C ≤ character.toNat && character.toNat ≤ 0x1F

/-- The character is blank. -/
def isBlank
    (character : Char) :
    Bool :=
  isWhiteSpace character || isSeparator character

/-- A text without the characters of a class at both ends. -/
def trim
    (isDropped : Char → Bool)
    (text : List Char) :
    List Char :=
  ((text.dropWhile isDropped).reverse.dropWhile isDropped).reverse

/-- A text without the blanks at both ends. -/
def strip
    (text : List Char) :
    List Char :=
  trim isBlank text

/-- A zero-width space is not blank. -/
example :
    strip ['\u00a0', '\x1c', 'a', ' ', '\u200b', '\n'] = ['a', ' ', '\u200b'] := by
  decide +kernel

/-- An information separator is not white space. -/
example :
    trim isWhiteSpace ['\u00a0', '\x1c', 'a', ' '] = ['\x1c', 'a'] := by
  decide +kernel

end ManaCost.Text
