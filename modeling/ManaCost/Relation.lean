namespace ManaCost

/-!
# How two collections overlap
-/

/-- How the left of two collections stands to the right one. -/
inductive Relation where
  | equal
  | containedIn
  | contains
  | intersects
  | disjoint
  deriving DecidableEq, Repr

namespace Relation

/-- The relations in their usual order. -/
def all : List Relation :=
  [.equal, .containedIn, .contains, .intersects, .disjoint]

/-- The label of a relation in reports. -/
def label : Relation → String
  | .equal => "equal"
  | .containedIn => "contained_in"
  | .contains => "contains"
  | .intersects => "intersects"
  | .disjoint => "disjoint"

/-- The name of a relation as a constant. -/
def constantName
    (relation : Relation) :
    String :=
  relation.label.map Char.toUpper

/-- The sign of the left collection against the right one, where one of them contains the other. -/
def sign? : Relation → Option Int
  | .equal => some 0
  | .containedIn => some (-1)
  | .contains => some 1
  | .intersects => none
  | .disjoint => none

/-- The relation seen from the other side. -/
def converse : Relation → Relation
  | .containedIn => .contains
  | .contains => .containedIn
  | relation => relation

end Relation

/-- The sign of a comparison. -/
def signOf : Ordering → Int
  | .lt => -1
  | .eq => 0
  | .gt => 1

end ManaCost
