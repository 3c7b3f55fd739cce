import ManaCost.Symbol.Reader

namespace ManaCost

/-!
# The catalog of symbols

The symbols that have a name of their own: atoms, half pips and variables, five amounts of generic
mana, and the twenty hybrids of two colors, of two generic or a color, and of a color or life.
-/

namespace PureSymbol

/-- The atoms. -/
def atoms : List PureSymbol :=
  Atom.all.map .atom

/-- The half pips. -/
def halves : List PureSymbol :=
  Color.all.map .half

/-- The variables. -/
def vars : List PureSymbol :=
  Variable.all.map .var

/-- The amounts of generic mana that have a name. -/
def namedGenerics : List (String × PureSymbol) := [
  ("ZERO", .generic .zero),
  ("HALF", .generic .half),
  ("ONE", .generic .one),
  ("TWO", .generic .two),
  ("INFINITY", .generic .infinite)]

/-- The half pip of an atom. -/
def halved? : PureSymbol → Option PureSymbol
  | .atom (.pip color) => some (.half color)
  | _ => none

/-- The whole pip of a half. -/
def whole? : PureSymbol → Option PureSymbol
  | .half color => some (.atom (.pip color))
  | _ => none

end PureSymbol

namespace Hybrid

/-- The names and options of the hybrids of two pigments. -/
def pigmentPairs : List (String × List PureSymbol) :=
  (ColorSet.all.filter fun set => set.size == 2 && !set.contains .colorless).map fun set =>
    ("_".intercalate (set.printingOrder.map fun color => ColorSet.capitals color.name),
      set.printingOrder.map PureSymbol.pip)

/-- The names and options of the hybrids of two generic or a pigment. -/
def twoOrPigment : List (String × List PureSymbol) :=
  Color.wheel.map fun color =>
    ("TWO_" ++ ColorSet.capitals color.name, [.generic .two, .pip color])

/-- The names and options of the hybrids of a pigment or life. -/
def pigmentOrLife : List (String × List PureSymbol) :=
  Color.wheel.map fun color =>
    (ColorSet.capitals color.name ++ "_PHYREXIAN", [.pip color, .phyrexian])

/-- The twenty hybrids that have a name, sorted by it. -/
def named : List (String × Hybrid) :=
  arrange (fun left right => compare left.1.toList right.1.toList) <|
    (pigmentPairs ++ twoOrPigment ++ pigmentOrLife).filterMap fun entry =>
      (ofOptions? entry.2).map fun hybrid => (entry.1, hybrid)

end Hybrid

end ManaCost
