import Mathlib
import ManaCost.Arrange

namespace ManaCost

/-!
# What sorting determines

A sorted list is left alone.  When a comparison separates the items of a list, sorting gives the
only strictly ascending arrangement of them, whatever their order was before.
-/

variable {α β : Type}

/-- A comparison of what a view shows of two items. -/
def compareThrough
    (order : β → β → Ordering)
    (view : α → β) :
    α → α → Ordering :=
  fun left right => order (view left) (view right)

instance (order : β → β → Ordering) [Std.TransCmp order] (view : α → β) :
    Std.TransCmp (compareThrough order view) where
  eq_swap {left right} := @Std.OrientedCmp.eq_swap _ order _ (view left) (view right)
  isLE_trans before after := @Std.TransCmp.isLE_trans _ order _ _ _ _ before after

/-- A list that is in order is left alone. -/
theorem arrange_of_pairwise
    (order : α → α → Ordering)
    {items : List α}
    (sorted : items.Pairwise fun left right => (order left right).isLE) :
    arrange order items = items := by
  induction items with
  | nil => rfl
  | cons item rest inductionHypothesis =>
      rw [List.pairwise_cons] at sorted
      rw [arrange, inductionHypothesis sorted.2]
      cases rest with
      | nil => rfl
      | cons next others =>
          rw [place, if_pos (sorted.1 next (by simp))]

/-- Sorting is determined by what is sorted when the comparison separates the items. -/
theorem arrange_eq_of_perm
    (order : α → α → Ordering)
    [Std.TransCmp order]
    {left right : List α}
    (same : left.Perm right)
    (separates : ∀ first ∈ left, ∀ second ∈ left, order first second = .eq → first = second) :
    arrange order left = arrange order right := by
  have arranged : (arrange order left).Perm (arrange order right) :=
    (perm_arrange order left).trans (same.trans (perm_arrange order right).symm)
  refine List.Perm.eq_of_pairwise ?_ (pairwise_arrange order left) (pairwise_arrange order right)
    arranged
  intro first second firstMember secondMember before after
  have firstGiven : first ∈ left := (perm_arrange order left).mem_iff.1 firstMember
  have secondGiven : second ∈ left :=
    same.mem_iff.2 ((perm_arrange order right).mem_iff.1 secondMember)
  exact separates first firstGiven second secondGiven
    (Std.OrientedCmp.isLE_antisymm before after)

/-- A sorted list of distinct items is strictly ascending when the comparison separates them. -/
theorem pairwise_lt_of_separates
    (order : α → α → Ordering)
    {items : List α}
    (sorted : items.Pairwise fun left right => (order left right).isLE)
    (distinct : items.Pairwise fun left right => order left right ≠ .eq) :
    items.Pairwise fun left right => order left right = .lt := by
  refine (sorted.and distinct).imp ?_
  intro left right both
  obtain ⟨before, different⟩ := both
  cases direction : order left right with
  | lt => rfl
  | eq => exact absurd direction different
  | gt => simp [direction] at before

end ManaCost
