import ManaCost.ColorSet.Catalog
import ManaCost.Relation

namespace ManaCost.ColorSet

/-!
# Orders on color sets

Two sets are related by inclusion.  Lists of sets are sorted by size and catalog position, with the
empty set first or last.  Inside a cost or a hybrid symbol, colors are laid out in the printing
order of the whole: `symbolOrder` compares two sets from the point of view of a third.
-/

/-- How a set stands to another. -/
def relate
    (left right : ColorSet) :
    Relation :=
  if left = right then
    .equal
  else if left ∩ right = right then
    .contains
  else if left ∩ right = left then
    .containedIn
  else if left ∩ right = ∅ then
    .disjoint
  else
    .intersects

/-- The position of a color in the printing order of a set; a color that the set lacks comes after
those it has, in the order of masks. -/
def position
    (whole : ColorSet)
    (color : Color) :
    Nat :=
  let order := whole.printingOrder
  match order.idxOf? color with
  | some index => index
  | none => order.length + color.index

/-- The difference of two sets in the printing order of a whole: negative when the left one comes
first.

Sets of different size are ordered by size, except that sets of one and of two colors are ordered
by their first colors, so that a hybrid symbol settles between its colors.  Sets of one size are
ordered by their first colors too. -/
def symbolOrder
    (whole left right : ColorSet) :
    Int :=
  let bySize : Int := (left.size : Int) - right.size
  if left.size + right.size ≠ 3 ∧ left.size ≠ right.size then
    bySize
  else
    match left.printingOrder.head?, right.printingOrder.head? with
    | some first, some second =>
        if first = second then
          bySize
        else
          (whole.position first : Int) - whole.position second
    | _, _ => bySize

/-- `symbolOrder` as a comparison. -/
def compareIn
    (whole left right : ColorSet) :
    Ordering :=
  compare (whole.symbolOrder left right) 0

/-- The sort key of a set by size and catalog position. -/
def emptyFirstKey
    (set : ColorSet) :
    Nat × Nat :=
  (set.size, set.ordinal)

/-- Smaller sets first, and the empty set before all others. -/
def compareEmptyFirst
    (left right : ColorSet) :
    Ordering :=
  (compare left.size right.size).then (compare left.ordinal right.ordinal)

/-- Smaller sets first, but the empty set after all others. -/
def compareEmptyLast
    (left right : ColorSet) :
    Ordering :=
  (compare left.isEmpty right.isEmpty).then (compareEmptyFirst left right)

end ManaCost.ColorSet
