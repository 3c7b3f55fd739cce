import ManaCost.Cost.Basic
import ManaCost.Symbol.Reader

namespace ManaCost

/-!
# Reading costs

A cost is written as groups of a symbol between braces, with nothing between the groups.  The first
fault from the left is reported: a character that is out of place by its position, and a group that
holds no symbol, when its brace is closed, by the fault of the symbol.
-/

/-- The symbols of the groups in a text, from a position on.  Inside a group, the characters behind
its opening brace are given, the last one first. -/
def readGroups
    (whole : List Char)
    (position : Nat) :
    Option (List Char) → List Char → Except Fault (List Symbol)
  | none, [] => .ok []
  | some _, [] => .error (.malformedCost (String.ofList whole) position)
  | none, character :: rest =>
      if character = '{' then
        readGroups whole (position + 1) (some []) rest
      else
        .error (.malformedCost (String.ofList whole) position)
  | some reversed, character :: rest =>
      if character = '{' then
        .error (.malformedCost (String.ofList whole) position)
      else if character = '}' then
        match Symbol.read (braced reversed.reverse) with
        | .error fault => .error fault
        | .ok symbol =>
            match readGroups whole (position + 1) none rest with
            | .error fault => .error fault
            | .ok symbols => .ok (symbol :: symbols)
      else
        readGroups whole (position + 1) (some (character :: reversed)) rest

namespace Cost

/-- The cost that a text writes. -/
def read
    (text : List Char) :
    Except Fault Cost :=
  match readGroups text 0 none text with
  | .error fault => .error fault
  | .ok symbols => .ok (ofSymbols symbols)

/-- The cost that a text writes. -/
def ofText
    (text : String) :
    Except Fault Cost :=
  read text.toList

end Cost

end ManaCost
