import Mathlib
import ManaCost.ColorSet.Order

namespace ManaCost.ColorSet

/-!
# The order of color sets by size

Smaller sets come first, and sets of one size in the order of the catalog.  The order agrees with
inclusion: the main statement is `isLE_compareEmptyFirst_of_subset`.
-/

variable {left right : ColorSet}

instance : Std.TransCmp compareEmptyFirst :=
  inferInstanceAs (Std.TransCmp (compareLex (compareOn size) (compareOn ordinal)))

instance : Std.TransCmp compareEmptyLast :=
  inferInstanceAs (Std.TransCmp (compareLex (compareOn isEmpty) compareEmptyFirst))

theorem members_sublist
    (inside : left ⊆ right) :
    left.members.Sublist right.members :=
  List.monotone_filter_right _ fun color => subset_iff.1 inside color

/-- A subset of the same size is the whole set. -/
theorem eq_of_subset_of_size_eq
    (inside : left ⊆ right)
    (same : left.size = right.size) :
    left = right := by
  have members : left.members = right.members := (members_sublist inside).eq_of_length same
  have mem_iff (set : ColorSet) (color : Color) : color ∈ set ↔ color ∈ set.members :=
    ⟨fun member => List.mem_filter.2 ⟨color.mem_all, member⟩,
      fun member => (List.mem_filter.1 member).2⟩
  apply ext_mem
  intro color
  rw [mem_iff left, mem_iff right, members]

/-- A subset does not come after its set. -/
theorem isLE_compareEmptyFirst_of_subset
    (inside : left ⊆ right) :
    (left.compareEmptyFirst right).isLE = true := by
  rcases (members_sublist inside).length_le.lt_or_eq with smaller | same
  · have bySize : compare left.size right.size = .lt := Nat.compare_eq_lt.2 smaller
    rw [compareEmptyFirst, bySize]
    rfl
  · have itself : right.compareEmptyFirst right = .eq := Std.ReflCmp.compare_self
    rw [eq_of_subset_of_size_eq inside same, itself]
    rfl

end ManaCost.ColorSet
