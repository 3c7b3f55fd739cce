namespace ManaCost.Text

/-!
# Comparing without regard to case

Names of color sets hold ASCII characters only, so a text can match one only through characters
that fold to ASCII.  Those are folded in full; every other character is left as it is, and no
folded text that holds one equals an ASCII name.
-/

/-- The characters beyond ASCII that fold to ASCII. -/
def asciiFoldings : List (Char × List Char) := [
  ('ſ', ['s']), ('\u212a', ['k']), ('ß', ['s', 's']), ('ẞ', ['s', 's']),
  ('ﬀ', ['f', 'f']), ('ﬁ', ['f', 'i']), ('ﬂ', ['f', 'l']),
  ('ﬃ', ['f', 'f', 'i']), ('ﬄ', ['f', 'f', 'l']), ('ﬅ', ['s', 't']), ('ﬆ', ['s', 't'])]

/-- The folding of one character. -/
def foldChar
    (character : Char) :
    List Char :=
  (asciiFoldings.lookup character).getD [character.toLower]

/-- The folding of a text: two texts with one folding differ in case only. -/
def caseless
    (text : List Char) :
    List Char :=
  text.flatMap foldChar

/-- Long s, the ligature of s and t and the Kelvin sign fold to ASCII. -/
example :
    caseless ['ſ', 'ﬆ', '\u212a', 'E', '+'] = ['s', 's', 't', 'k', 'e', '+'] := by
  decide +kernel

end ManaCost.Text
