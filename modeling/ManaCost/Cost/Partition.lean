import ManaCost.Cost.Basic
import ManaCost.Relation

namespace ManaCost

/-!
# What two costs share

Two costs are split into what only the left one has, what both have, and what only the right one
has.  Generic mana is split by amount and every other symbol by count.  Generic mana of amount zero
belongs to no part.
-/

/-- Two costs split by what they share. -/
structure Partition where
  leftOnly : Cost
  both : Cost
  rightOnly : Cost
  deriving DecidableEq

namespace Partition

/-- A positive amount as a tally. -/
def genericPart
    (amount : Amount) :
    Tally :=
  if amount.isPositive then [(.generic amount, 1)] else []

/-- The symbols of a cost that are more than in another; those that are not are dropped. -/
def excess
    (cost other : Cost) :
    Tally :=
  Tally.present <| cost.entries.nonGeneric.map fun entry =>
    (entry.1, entry.2 - other.count entry.1)

/-- The symbols of a cost that another has too. -/
def shared
    (cost other : Cost) :
    Tally :=
  Tally.present <| cost.entries.nonGeneric.map fun entry =>
    (entry.1, min entry.2 (other.count entry.1))

/-- What only one of two costs has, not yet polished. -/
def ownTally
    (cost other : Cost)
    (sharedGeneric : Amount) :
    Tally :=
  excess cost other ++ genericPart (cost.generic.difference sharedGeneric)

/-- What both costs have, not yet polished. -/
def commonTally
    (left right : Cost)
    (sharedGeneric : Amount) :
    Tally :=
  shared left right ++ genericPart sharedGeneric

/-- The split of two costs. -/
def of
    (left right : Cost) :
    Partition :=
  let sharedGeneric := left.generic.least right.generic
  { leftOnly := .ofTally (ownTally left right sharedGeneric)
    both := .ofTally (commonTally left right sharedGeneric)
    rightOnly := .ofTally (ownTally right left sharedGeneric) }

/-- How the left cost stands to the right one. -/
def relation
    (partition : Partition) :
    Relation :=
  if partition.leftOnly.isEmpty && partition.rightOnly.isEmpty then
    .equal
  else if partition.leftOnly.isEmpty then
    .containedIn
  else if partition.rightOnly.isEmpty then
    .contains
  else if partition.both.isEmpty then
    .disjoint
  else
    .intersects

/-- The order of the two costs in a search: a cost comes before every cost that contains it, and
other costs are ordered by the colors that are not shared. -/
def comparison
    (partition : Partition) :
    Ordering :=
  match partition.leftOnly.isEmpty, partition.rightOnly.isEmpty with
  | true, true => .eq
  | true, false => .lt
  | false, true => .gt
  | false, false => partition.leftOnly.color.compareEmptyFirst partition.rightOnly.color

end Partition

namespace Cost

/-- The order of two costs in a search. -/
def searchCompare
    (left right : Cost) :
    Ordering :=
  (Partition.of left right).comparison

end Cost

end ManaCost
