import ManaCost.Proofs.ColorSet.Size
import ManaCost.Proofs.Cost.Partition
import ManaCost.Proofs.Cost.Queries

namespace ManaCost

/-!
# How far the order of a search is an order

A search puts a cost before every cost that contains it and compares other costs by the colors that
they do not share.  What two costs share changes from pair to pair, so that the comparison is not
transitive: `not_transitive_searchCompare`.  The main statement is `searchCompare_trans_iff`, by
which it fails only where none of three costs contains another.
-/

namespace Cost

variable {left right first second third : Cost}

/-- The colors of what only one of two costs has. -/
def ownColor
    (cost other : Cost) :
    ColorSet :=
  (Partition.of cost other).leftOnly.color

/-- A larger cost has more colors of its own, and so has a cost beside a smaller one. -/
theorem ownColor_subset
    {cost other larger smaller : Cost}
    (more : cost.Within larger)
    (less : smaller.Within other) :
    cost.ownColor other ⊆ larger.ownColor smaller := by
  rw [ColorSet.subset_iff]
  intro color
  unfold ownColor
  rw [mem_color, mem_color]
  rintro ⟨symbol, notGeneric, held, inside⟩
  refine ⟨symbol, notGeneric, ?_, inside⟩
  rw [Partition.count_leftOnly _ _ notGeneric] at held ⊢
  have moreCopies := more.count_le symbol notGeneric
  have fewerCopies := less.count_le symbol notGeneric
  omega

/-- The colors that only the left cost has come before those that only the right one has. -/
def Ascends
    (left right : Cost) :
    Prop :=
  (left.ownColor right).compareEmptyFirst (right.ownColor left) = .lt

theorem Ascends.asymm
    (ascends : left.Ascends right) :
    ¬right.Ascends left := by
  intro descends
  have swapped := Std.OrientedCmp.gt_of_lt descends
  rw [Ascends] at ascends
  rw [swapped] at ascends
  exact absurd ascends (by decide)

/-- Costs still ascend when the left one gets smaller and the right one gets larger. -/
theorem Ascends.mono
    {smaller larger : Cost}
    (ascends : left.Ascends right)
    (less : smaller.Within left)
    (more : right.Within larger) :
    smaller.Ascends larger := by
  have before := ColorSet.isLE_compareEmptyFirst_of_subset (ownColor_subset less more)
  have after := ColorSet.isLE_compareEmptyFirst_of_subset (ownColor_subset more less)
  exact Std.TransCmp.lt_of_isLE_of_lt before (Std.TransCmp.lt_of_lt_of_isLE ascends after)

/-- One cost comes before another when the other does not lie within it and either contains it or
has colors of its own that come later. -/
theorem searchCompare_eq_lt_iff :
    left.searchCompare right = .lt ↔
      ¬right.Within left ∧ (left.Within right ∨ left.Ascends right) := by
  have leftEmpty := Partition.isEmpty_leftOnly_iff left right
  have rightEmpty := Partition.isEmpty_leftOnly_iff right left
  rw [searchCompare, Partition.comparison, ← leftEmpty, ← rightEmpty,
    Partition.rightOnly_eq_leftOnly, Ascends, ownColor, ownColor]
  cases (Partition.of left right).leftOnly.isEmpty <;>
    cases (Partition.of right left).leftOnly.isEmpty <;> simp

/-- No cost is reached again by way of a cost in between. -/
theorem not_within_of_searchCompare_eq_lt
    (before : first.searchCompare second = .lt)
    (after : second.searchCompare third = .lt) :
    ¬third.Within first := by
  intro back
  obtain ⟨notBefore, before⟩ := searchCompare_eq_lt_iff.1 before
  obtain ⟨notAfter, after⟩ := searchCompare_eq_lt_iff.1 after
  rcases before with inside | ascends
  · exact notAfter (back.trans inside)
  · rcases after with inside | ascendsAfter
    · exact notBefore (inside.trans back)
    · exact ascendsAfter.asymm (ascends.mono back (Within.refl second))

/--
Of three costs that are in order pairwise from one to the next, the first comes before the third
where any of them contains another.  Otherwise this is left to the colors that the first and the
third do not share, whatever the second one is; but the third never lies within the first.
-/
theorem searchCompare_trans_iff
    (before : first.searchCompare second = .lt)
    (after : second.searchCompare third = .lt) :
    ¬third.Within first ∧
      (first.searchCompare third = .lt ↔
        first.Within second ∨ second.Within third ∨ first.Within third ∨ first.Ascends third) := by
  have notBack := not_within_of_searchCompare_eq_lt before after
  obtain ⟨-, before⟩ := searchCompare_eq_lt_iff.1 before
  obtain ⟨-, after⟩ := searchCompare_eq_lt_iff.1 after
  refine ⟨notBack, ?_⟩
  rw [searchCompare_eq_lt_iff, and_iff_right notBack]
  constructor
  · exact fun outer => .inr (.inr outer)
  · rintro (inside | inside | outer)
    · rcases after with insideAfter | ascends
      · exact .inl (inside.trans insideAfter)
      · exact .inr (ascends.mono inside (Within.refl third))
    · rcases before with insideBefore | ascends
      · exact .inl (insideBefore.trans inside)
      · exact .inr (ascends.mono (Within.refl first) inside)
    · exact outer

/-- A black pip comes before a white and a blue one by color, and these before more of the same. -/
theorem searchCompare_black_white_blue :
    (ofSymbols [.pip .black]).searchCompare (ofSymbols [.pip .white, .pip .blue]) = .lt ∧
      (ofSymbols [.pip .white, .pip .blue]).searchCompare
          (ofSymbols [.pip .white, .pip .blue, .pip .blue]) = .lt ∧
        (ofSymbols [.pip .black]).searchCompare
          (ofSymbols [.pip .white, .pip .blue, .pip .blue]) = .lt := by
  have before : (ofSymbols [.pip .black]).searchCompare
      (ofSymbols [.pip .white, .pip .blue]) = .lt := by
    decide +kernel
  have after : (ofSymbols [.pip .white, .pip .blue]).searchCompare
      (ofSymbols [.pip .white, .pip .blue, .pip .blue]) = .lt := by
    decide +kernel
  have inside : (ofSymbols [.pip .white, .pip .blue]).Within
      (ofSymbols [.pip .white, .pip .blue, .pip .blue]) := by
    rw [← Partition.isEmpty_leftOnly_iff]
    decide +kernel
  obtain ⟨-, outer⟩ := searchCompare_trans_iff before after
  exact ⟨before, after, outer.2 (.inr (.inl inside))⟩

/-- A white and a blue pip are two colors beside a black pip, but one color beside two blue pips,
with which they share the blue one. -/
theorem not_transitive_searchCompare :
    (ofSymbols [.pip .black]).searchCompare (ofSymbols [.pip .white, .pip .blue]) = .lt ∧
      (ofSymbols [.pip .white, .pip .blue]).searchCompare
          (ofSymbols [.pip .blue, .pip .blue]) = .lt ∧
        (ofSymbols [.pip .black]).searchCompare (ofSymbols [.pip .blue, .pip .blue]) = .gt := by
  decide +kernel

end Cost

end ManaCost
