import ManaCost.Cost.Basic

namespace ManaCost.Cost

/-!
# Orders on costs

Costs are sorted by devotion, by purity and devotion, or completely: by color with colorless costs
last, then by value, then by purity and devotion.
-/

/-- The devotion to each pigment, in the order of the color wheel. -/
def devotionKey
    (cost : Cost) :
    List Nat :=
  Color.wheel.map cost.devotion

/-- Less devotion first. -/
def compareDevotion
    (left right : Cost) :
    Ordering :=
  compare left.devotionKey right.devotionKey

/-- Pure costs first, then less devotion. -/
def compareSymbols
    (left right : Cost) :
    Ordering :=
  (compare (!left.isPure) (!right.isPure)).then (left.compareDevotion right)

/-- The order in which costs are shown. -/
def compareComplete
    (left right : Cost) :
    Ordering :=
  (left.color.compareEmptyLast right.color).then <|
    (compare left.manaValue right.manaValue).then <|
      left.compareSymbols right

end ManaCost.Cost
