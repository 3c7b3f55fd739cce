namespace ManaCost.Report

/-!
# Styled text without its styles

In styled text a tag stands between square brackets.  Backslashes in front of a tag are halved, and
an odd one out keeps the tag from being taken for one.  In front of any other opening bracket one
backslash is dropped, because there it stands for the bracket itself.
-/

/-- The character can be the first of a tag. -/
def startsTag
    (character : Char) :
    Bool :=
  character.isLower || character == '#' || character == '/' || character == '@'

/-- A closing bracket follows before the next opening one. -/
def closes : List Char → Bool
  | [] => false
  | character :: rest =>
      character == ']' || character != '[' && closes rest

/-- What follows an opening bracket makes it open a tag. -/
def opensTag : List Char → Bool
  | [] => false
  | character :: rest => startsTag character && closes rest

/-- As many backslashes. -/
def backslashes
    (count : Nat) :
    List Char :=
  List.replicate count '\\'

/-- A message behind a number of backslashes, as styled text in which nothing is taken for a tag. -/
def escapedFrom
    (pending : Nat) :
    List Char → List Char
  | [] => backslashes pending
  | '\\' :: rest => escapedFrom (pending + 1) rest
  | '[' :: rest =>
      let written := if opensTag rest then 2 * pending + 1 else pending
      backslashes written ++ '[' :: escapedFrom 0 rest
  | character :: rest => backslashes pending ++ character :: escapedFrom 0 rest

/-- Styled text behind a number of backslashes, or inside a tag, without its tags. -/
def visibleFrom
    (pending : Nat)
    (inTag : Bool) :
    List Char → List Char
  | [] => backslashes pending
  | character :: rest =>
      if inTag then
        visibleFrom 0 (character != ']') rest
      else if character = '\\' then
        visibleFrom (pending + 1) false rest
      else if character ≠ '[' then
        backslashes pending ++ character :: visibleFrom 0 false rest
      else if opensTag rest = false then
        backslashes (pending - 1) ++ '[' :: visibleFrom 0 false rest
      else if pending % 2 = 1 then
        backslashes (pending / 2) ++ '[' :: visibleFrom 0 false rest
      else
        backslashes (pending / 2) ++ visibleFrom 0 true rest

/-- A message as styled text in which nothing is taken for a tag. -/
def escaped
    (message : String) :
    String :=
  String.ofList (escapedFrom 0 message.toList)

/-- Styled text without its tags. -/
def visible
    (markup : String) :
    String :=
  String.ofList (visibleFrom 0 false markup.toList)

end ManaCost.Report
