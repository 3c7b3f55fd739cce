import ManaCost.Symbol.Basic
import ManaCost.Text.DecimalDigit

namespace ManaCost

/-!
# Reading symbols

A pure token is the code of an atom, half a pip or a variable, or an amount of generic mana.  An
amount is the sign of infinity, or a decimal number with the sign of one half behind it, or either
of the two alone; its sign is looked at only after the half has been added.  Tokens between slashes
are the options of a hybrid symbol.  Braces around a token may be left out.
-/

/-- Why a token is no symbol. -/
inductive TokenFault where
  | malformed
  | negative (value : Signed)
  deriving DecidableEq

namespace TokenFault

/-- The fault of the text in which a token stands. -/
def within
    (text : List Char) :
    TokenFault → Fault
  | .malformed => .malformedSymbol (String.ofList text)
  | .negative value => .negativeGeneric value

end TokenFault

/-- A decimal number with a sign. -/
structure Numeral where
  negative : Bool
  magnitude : Decimal
  deriving DecidableEq

namespace Numeral

/-- Digits with at most one point among them, and at least one digit. -/
def readMagnitude?
    (text : List Char) :
    Option Decimal :=
  let whole := text.takeWhile Text.isDecimalDigit
  match text.dropWhile Text.isDecimalDigit with
  | [] =>
      if whole.isEmpty then
        none
      else
        some ⟨Text.digitsValue whole, 0⟩
  | '.' :: fraction =>
      if fraction.all Text.isDecimalDigit && !(whole ++ fraction).isEmpty then
        some ⟨Text.digitsValue (whole ++ fraction), -(fraction.length : Int)⟩
      else
        none
  | _ => none

/-- A magnitude with or without a minus. -/
def read? : List Char → Option Numeral
  | '-' :: text => (readMagnitude? text).map (⟨true, ·⟩)
  | text => (readMagnitude? text).map (⟨false, ·⟩)

/-- A numeral added to an amount. -/
def addedTo
    (start : Amount)
    (numeral : Numeral) :
    Signed :=
  start.plusSigned numeral.negative numeral.magnitude.nearest

end Numeral

namespace Amount

/-- The amount that is at least zero, or the fault of a number that is not. -/
def ofSigned
    (value : Signed) :
    Except TokenFault Amount :=
  match value.amount? with
  | some amount => .ok amount
  | none => .error (.negative value)

/-- A numeral added to an amount, where the text of the numeral may be malformed. -/
def ofNumeral
    (start : Amount)
    (text : List Char) :
    Except TokenFault Amount :=
  match Numeral.read? text with
  | some numeral => ofSigned (numeral.addedTo start)
  | none => .error .malformed

/-- The amount that a token writes. -/
def ofToken
    (token : List Char) :
    Except TokenFault Amount :=
  if token = [infinityGlyph] then
    .ok .infinite
  else if token = [halfGlyph] then
    .ok half
  else if token.getLast? = some halfGlyph then
    ofNumeral half token.dropLast
  else
    ofNumeral zero token

end Amount

namespace PureSymbol

/-- The symbols that have a code of letters. -/
def coded : List PureSymbol :=
  Atom.all.map .atom ++ Color.all.map .half ++ Variable.all.map .var

/-- The pure symbol that a token writes. -/
def ofToken
    (token : List Char) :
    Except TokenFault PureSymbol :=
  match coded.find? fun symbol => symbol.token == token with
  | some symbol => .ok symbol
  | none =>
      match Amount.ofToken token with
      | .ok amount => .ok (.generic amount)
      | .error fault => .error fault

end PureSymbol

/-- The parts of a token between slashes. -/
def splitAtSlashes : List Char → List (List Char)
  | [] => [[]]
  | character :: rest =>
      if character = '/' then
        [] :: splitAtSlashes rest
      else
        match splitAtSlashes rest with
        | [] => [[character]]
        | part :: parts => (character :: part) :: parts

/-- The pure symbols that tokens write, up to the first that writes none. -/
def pureSymbolsOf : List (List Char) → Except TokenFault (List PureSymbol)
  | [] => .ok []
  | token :: rest =>
      match PureSymbol.ofToken token with
      | .error fault => .error fault
      | .ok symbol =>
          match pureSymbolsOf rest with
          | .error fault => .error fault
          | .ok symbols => .ok (symbol :: symbols)

namespace Hybrid

/-- The hybrid whose options a token writes between slashes. -/
def ofToken
    (token : List Char) :
    Except TokenFault Hybrid :=
  match pureSymbolsOf (splitAtSlashes token) with
  | .error fault => .error fault
  | .ok options =>
      match ofOptions? options with
      | some hybrid => .ok hybrid
      | none => .error .malformed

end Hybrid

/-- What stands between the braces of a text, or the whole text when it opens with no brace. -/
def unbraced? : List Char → Option (List Char)
  | '{' :: rest => if rest.getLast? = some '}' then some rest.dropLast else none
  | token => some token

namespace Symbol

/-- The symbol that a token writes; a hybrid has more than two characters and a slash. -/
def ofToken
    (token : List Char) :
    Except TokenFault Symbol :=
  if token.isEmpty then
    .error .malformed
  else if 2 < token.length ∧ '/' ∈ token then
    match Hybrid.ofToken token with
    | .ok options => .ok (.hybrid options)
    | .error fault => .error fault
  else
    match PureSymbol.ofToken token with
    | .ok symbol => .ok (.single symbol)
    | .error fault => .error fault

/-- The symbol that a text writes, with or without braces. -/
def read
    (text : List Char) :
    Except Fault Symbol :=
  match unbraced? text with
  | none => .error (.malformedSymbol (String.ofList text))
  | some token =>
      match ofToken token with
      | .ok symbol => .ok symbol
      | .error fault => .error (fault.within text)

/-- The symbol that a text writes, with or without braces. -/
def ofText
    (text : String) :
    Except Fault Symbol :=
  read text.toList

/-- The symbol of generic mana of a given amount, which may not be negative. -/
def genericOf
    (value : Signed) :
    Except Fault Symbol :=
  match value.amount? with
  | some amount => .ok (.generic amount)
  | none => .error (.negativeGeneric value)

end Symbol

end ManaCost
