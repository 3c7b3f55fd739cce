import ManaCost.Arrange
import ManaCost.Symbol.Pure

namespace ManaCost

/-!
# Hybrid symbols

A hybrid symbol is paid by any one of two or more pure options.  Its options are kept without
repeats in printing order, so that two hybrids with the same options are equal however they were
built: the Phyrexian pip is last, then colors are laid out as in the union of all colors, then the
smaller value and the smaller text come first.
-/

namespace PureSymbol

/-- The printing order of options inside a union of colors. -/
def compareOptions
    (whole : ColorSet)
    (left right : PureSymbol) :
    Ordering :=
  (compare (left == phyrexian) (right == phyrexian)).then <|
    (whole.compareIn left.color right.color).then <|
      (compare left.manaValue right.manaValue).then <|
        compare left.token right.token

end PureSymbol

/-- Options between slashes. -/
def joinTokens
    (options : List PureSymbol) :
    List Char :=
  List.intercalate ['/'] (options.map PureSymbol.token)

namespace Hybrid

/-- The colors of all options. -/
def unionColor
    (options : List PureSymbol) :
    ColorSet :=
  .unionAll (options.map PureSymbol.color)

/-- The distinct options of a list in printing order. -/
def layOut
    (options : List PureSymbol) :
    List PureSymbol :=
  let distinct := options.eraseDups
  arrange (PureSymbol.compareOptions (unionColor distinct)) distinct

end Hybrid

/-- Two or more distinct options in printing order. -/
structure Hybrid where
  options : List PureSymbol
  laidOut : ∃ given, Hybrid.layOut given = options
  several : 2 ≤ options.length

namespace Hybrid

instance : DecidableEq Hybrid :=
  fun left right =>
    decidable_of_iff (left.options = right.options) <| by
      cases left
      cases right
      simp

/-- The hybrid of a list of options, which fails unless two of them are distinct. -/
def ofOptions?
    (options : List PureSymbol) :
    Option Hybrid :=
  if several : 2 ≤ (layOut options).length then
    some ⟨layOut options, ⟨options, rfl⟩, several⟩
  else
    none

/-- The value of a hybrid is that of its dearest option. -/
def manaValue
    (hybrid : Hybrid) :
    Amount :=
  (hybrid.options.map PureSymbol.manaValue).foldl Amount.greatest .zero

/-- The colors of a hybrid. -/
def color
    (hybrid : Hybrid) :
    ColorSet :=
  unionColor hybrid.options

/-- What stands between the braces of a hybrid. -/
def token
    (hybrid : Hybrid) :
    List Char :=
  joinTokens hybrid.options

/-- The smaller of two sets, where the empty one is the largest. -/
def earlier
    (left right : ColorSet) :
    ColorSet :=
  if (left.compareEmptyLast right).isLE then left else right

/-- The color of the option that comes first by size and catalog, with colorless options last. -/
def firstColor
    (hybrid : Hybrid) :
    ColorSet :=
  match hybrid.options.map PureSymbol.color with
  | [] => ∅
  | first :: rest => rest.foldl earlier first

/-- A hybrid as diagnostics show it. -/
def inspect
    (hybrid : Hybrid) :
    String :=
  "Hybrid.of(" ++ ", ".intercalate (hybrid.options.map PureSymbol.inspect) ++ ")"

end Hybrid

end ManaCost
