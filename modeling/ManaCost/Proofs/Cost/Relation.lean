import ManaCost.Proofs.Bill.Rendering
import ManaCost.Proofs.Cost.Partition

namespace ManaCost

/-!
# Costs that are related as equal

Costs that lie within each other have the same symbols, except that `{0}` and no cost lie within
each other and differ.  The main statement is `Partition.relation_eq_equal_iff`: a split tells all
other pairs of different costs from equal ones.
-/

namespace Cost

variable {left right : Cost}

theorem Within.steps_eq
    (within : left.Within right)
    (back : right.Within left) :
    left.generic.steps = right.generic.steps :=
  le_antisymm within.generic_le back.generic_le

/-- Costs that lie within each other are equal once `{0}` is read as no cost. -/
theorem Within.orEmpty_eq
    (within : left.Within right)
    (back : right.Within left) :
    left.orEmpty = right.orEmpty := by
  refine eq_of_ne_free (orEmpty_ne_free left) (orEmpty_ne_free right) ?_ ?_
  · intro symbol notGeneric
    rw [count_orEmpty left notGeneric, count_orEmpty right notGeneric]
    exact le_antisymm (within.count_le symbol notGeneric) (back.count_le symbol notGeneric)
  · rw [generic_orEmpty, generic_orEmpty]
    exact Amount.steps_injective (within.steps_eq back)

/-- A cost lies within every cost that is the same once `{0}` is read as no cost. -/
theorem within_of_orEmpty_eq
    (same : left.orEmpty = right.orEmpty) :
    left.Within right where
  count_le symbol notGeneric := by
    rw [← count_orEmpty left notGeneric, same, count_orEmpty right notGeneric]
  generic_le := by
    rw [← generic_orEmpty left, same, generic_orEmpty right]

/-- Only `{0}` is read as another cost. -/
theorem orEmpty_eq_iff :
    left.orEmpty = right.orEmpty ↔
      left = right ∨ left = free ∧ right = empty ∨ left = empty ∧ right = free := by
  unfold orEmpty
  by_cases leftFree : left = free <;> by_cases rightFree : right = free
  · simp [leftFree, rightFree]
  · simp [leftFree, rightFree, Ne.symm rightFree, empty_ne_free.symm, eq_comm]
  · simp [leftFree, rightFree]
  · simp [leftFree, rightFree]

end Cost

namespace Partition

open Cost

/-- A split has nothing on either side when both costs lie within each other. -/
theorem relation_eq_equal_iff_within
    (left right : Cost) :
    (Partition.of left right).relation = .equal ↔ left.Within right ∧ right.Within left := by
  rw [relation, ← isEmpty_leftOnly_iff, ← isEmpty_rightOnly_iff]
  cases (Partition.of left right).leftOnly.isEmpty <;>
    cases (Partition.of left right).rightOnly.isEmpty <;>
      cases (Partition.of left right).both.isEmpty <;> simp

/--
Two costs are related as equal when they have the same symbols, or when one of them is `{0}` and the
other has no symbols at all.
-/
theorem relation_eq_equal_iff
    (left right : Cost) :
    (Partition.of left right).relation = .equal ↔
      left.sameSymbols right = true ∨
        left = free ∧ right.isEmpty = true ∨ left.isEmpty = true ∧ right = free := by
  rw [relation_eq_equal_iff_within, sameSymbols_iff_eq, Cost.isEmpty_iff, Cost.isEmpty_iff,
    ← orEmpty_eq_iff]
  constructor
  · rintro ⟨within, back⟩
    exact within.orEmpty_eq back
  · intro same
    exact ⟨within_of_orEmpty_eq same, within_of_orEmpty_eq same.symm⟩

/-- `{0}` can be paid and no cost cannot, but they are related as equal. -/
theorem relation_free_empty :
    (Partition.of free empty).relation = .equal ∧ free.sameSymbols empty = false := by
  decide +kernel

end Partition

end ManaCost
