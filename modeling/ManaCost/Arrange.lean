namespace ManaCost

/-!
# Stable sorting

Lists are sorted by a comparison, and items that compare as equal keep their order.  The main
statements are `perm_arrange` and `pairwise_arrange`: sorting permutes a list, and no item stands
before one that comes earlier, when the comparison is transitive.
-/

/-- Put an item in front of the first item that does not come before it. -/
def place
    (order : α → α → Ordering)
    (item : α) :
    List α → List α
  | [] => [item]
  | next :: rest =>
      if (order item next).isLE then
        item :: next :: rest
      else
        next :: place order item rest

/-- A list sorted by a comparison. -/
def arrange
    (order : α → α → Ordering) :
    List α → List α
  | [] => []
  | item :: rest => place order item (arrange order rest)

theorem perm_place
    (order : α → α → Ordering)
    (item : α)
    (items : List α) :
    (place order item items).Perm (item :: items) := by
  induction items with
  | nil => exact .refl _
  | cons next rest inductionHypothesis =>
      rw [place]
      split
      · exact .refl _
      · exact (inductionHypothesis.cons next).trans (.swap item next rest)

/-- Sorting keeps every item as often as it occurs. -/
theorem perm_arrange
    (order : α → α → Ordering)
    (items : List α) :
    (arrange order items).Perm items := by
  induction items with
  | nil => exact .refl _
  | cons item rest inductionHypothesis =>
      exact (perm_place order item _).trans (inductionHypothesis.cons item)

theorem pairwise_place
    (order : α → α → Ordering)
    [Std.TransCmp order]
    (item : α)
    {items : List α}
    (sorted : items.Pairwise fun left right => (order left right).isLE) :
    (place order item items).Pairwise fun left right => (order left right).isLE := by
  induction items with
  | nil => simp [place]
  | cons next rest inductionHypothesis =>
      rw [List.pairwise_cons] at sorted
      rw [place]
      split
      · rename_i before
        refine List.pairwise_cons.2 ⟨?_, List.pairwise_cons.2 sorted⟩
        intro other member
        rcases List.mem_cons.1 member with rfl | member
        · exact before
        · exact Std.TransCmp.isLE_trans before (sorted.1 other member)
      · rename_i after
        refine List.pairwise_cons.2 ⟨?_, inductionHypothesis sorted.2⟩
        intro other member
        rcases List.mem_cons.1 ((perm_place order item rest).mem_iff.1 member) with rfl | member
        · have swapped := @Std.OrientedCmp.eq_swap _ order _ next other
          rw [swapped]
          cases direction : order other next <;> simp_all
        · exact sorted.1 other member

/-- A sorted list is in order. -/
theorem pairwise_arrange
    (order : α → α → Ordering)
    [Std.TransCmp order]
    (items : List α) :
    (arrange order items).Pairwise fun left right => (order left right).isLE := by
  induction items with
  | nil => exact .nil
  | cons item rest inductionHypothesis => exact pairwise_place order item inductionHypothesis

end ManaCost
