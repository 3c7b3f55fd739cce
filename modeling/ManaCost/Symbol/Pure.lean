import ManaCost.Amount.Layout
import ManaCost.ColorSet.Order

namespace ManaCost

/-!
# Pure symbols

A pure symbol is paid in one way only.  It is an atom (a pip of a fixed value and color), half a
colored pip, an amount of generic mana or a variable.  Its token is what stands between the braces.
-/

/-- A symbol of fixed value and color. -/
inductive Atom where
  | pip (color : Color)
  | snow
  | phyrexian
  | tap
  | untap
  deriving DecidableEq, Repr

/-- A placeholder for a cost, worth nothing until it is replaced. -/
inductive Variable where
  | x
  | y
  | z
  deriving DecidableEq, Repr

/-- A symbol that is paid in one way only. -/
inductive PureSymbol where
  | atom (fixed : Atom)
  | half (color : Color)
  | generic (amount : Amount)
  | var (name : Variable)
  deriving DecidableEq

/-- The kinds of symbols, in the order in which symbols of one color are laid out. -/
inductive Kind where
  | var
  | generic
  | atom
  | half
  | hybrid
  deriving DecidableEq, Repr

namespace Kind

/-- The position of a kind among symbols of one color. -/
def rank : Kind → Nat
  | .var => 0
  | .generic => 1
  | .atom => 2
  | .half => 3
  | .hybrid => 4

/-- The name of a kind in reports. -/
def label : Kind → String
  | .var => "variable"
  | .generic => "generic"
  | .atom => "atom"
  | .half => "half"
  | .hybrid => "hybrid"

end Kind

namespace Atom

/-- Every atom. -/
def all : List Atom :=
  Color.all.map pip ++ [.snow, .phyrexian, .tap, .untap]

/-- The letter of an atom. -/
def letter : Atom → Char
  | .pip color => color.letter
  | .snow => 'S'
  | .phyrexian => 'P'
  | .tap => 'T'
  | .untap => 'Q'

/-- The value of an atom: tapping and untapping are worth nothing. -/
def manaValue : Atom → Amount
  | .tap | .untap => .zero
  | _ => .one

/-- The color of an atom. -/
def color : Atom → ColorSet
  | .pip color => .single color
  | _ => ∅

/-- The name of an atom as a constant. -/
def constantName : Atom → String
  | .pip color => ColorSet.capitals color.name
  | .snow => "SNOW"
  | .phyrexian => "PHYREXIAN"
  | .tap => "TAP"
  | .untap => "UNTAP"

end Atom

namespace Variable

/-- Every variable. -/
def all : List Variable :=
  [.x, .y, .z]

/-- The letter of a variable. -/
def letter : Variable → Char
  | .x => 'X'
  | .y => 'Y'
  | .z => 'Z'

/-- The variable that a text names. -/
def ofText
    (text : String) :
    Except Fault Variable :=
  match all.find? fun name => text == String.singleton name.letter with
  | some name => .ok name
  | none => .error (.unknownVariable text)

end Variable

namespace Amount

/-- The sign of one half in tokens. -/
def halfGlyph : Char :=
  '½'

/-- The sign of an infinite amount in tokens. -/
def infinityGlyph : Char :=
  '∞'

/-- An amount as a token: a whole number in all its digits, a whole number and a half with the sign
of one half, any other amount in full. -/
def token : Amount → List Char
  | .infinite => [infinityGlyph]
  | .finite steps isDouble =>
      let whole := steps / stepsPerMana
      let rest := steps % stepsPerMana
      if rest = 0 then
        Nat.toDigits 10 whole
      else if 2 * rest = stepsPerMana then
        (if whole = 0 then [] else Nat.toDigits 10 whole) ++ [halfGlyph]
      else
        numeral (.finite steps isDouble)

end Amount

namespace PureSymbol

/-- Whole pips of a color. -/
abbrev pip
    (color : Color) :
    PureSymbol :=
  .atom (.pip color)

/-- The Phyrexian pip, which comes last among the options of a hybrid symbol. -/
abbrev phyrexian : PureSymbol :=
  .atom .phyrexian

/-- The kind of a pure symbol. -/
def kind : PureSymbol → Kind
  | .atom _ => .atom
  | .half _ => .half
  | .generic _ => .generic
  | .var _ => .var

/-- The value of a pure symbol. -/
def manaValue : PureSymbol → Amount
  | .atom fixed => fixed.manaValue
  | .half _ => .half
  | .generic amount => amount
  | .var _ => .zero

/-- The color of a pure symbol. -/
def color : PureSymbol → ColorSet
  | .atom fixed => fixed.color
  | .half color => .single color
  | .generic _ => ∅
  | .var _ => ∅

/-- What stands between the braces of a pure symbol. -/
def token : PureSymbol → List Char
  | .atom fixed => [fixed.letter]
  | .half color => ['H', color.letter]
  | .generic amount => amount.token
  | .var name => [name.letter]

/-- A pure symbol as diagnostics show it. -/
def inspect : PureSymbol → String
  | .atom fixed => "Atom." ++ fixed.constantName
  | .half color => "HalfAtom.HALF_" ++ ColorSet.capitals color.name
  | .generic amount => "Generic(amount=" ++ amount.text ++ ")"
  | .var name => "Variable." ++ String.singleton name.letter

end PureSymbol

end ManaCost
