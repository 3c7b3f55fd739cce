import Mathlib
import ManaCost.Proofs.ColorSet.Layout

namespace ManaCost.ColorSet

/-!
# Pairs of colors between their colors

Two colors together are laid out with single colors, right behind the one that the pair is printed
with first.  The main statement is `compareIn_single`.
-/

/-- One color is printed alone. -/
theorem printingOrder_single
    (color : Color) :
    (single color).printingOrder = [color] := by
  cases color <;> decide +kernel

/-- Two colors are printed in one of the two orders. -/
theorem printingOrder_pair
    {first second : Color}
    (different : first ≠ second) :
    (single first ∪ single second).printingOrder = [first, second] ∨
      (single first ∪ single second).printingOrder = [second, first] := by
  have decided :
      ∀ first ∈ Color.all, ∀ second ∈ Color.all, first ≠ second →
        (single first ∪ single second).printingOrder = [first, second] ∨
          (single first ∪ single second).printingOrder = [second, first] := by
    decide +kernel
  exact decided first first.mem_all second second.mem_all different

/-- The positions of the colors of a set are those in its printing order. -/
theorem position_lt_iff_sublist
    {whole : ColorSet}
    {first second : Color}
    (firstInside : first ∈ whole)
    (secondInside : second ∈ whole) :
    whole.position first < whole.position second ↔
      [first, second].Sublist whole.printingOrder := by
  revert whole
  rw [forall_iff]
  have decided :
      ∀ bits, ∀ first ∈ Color.all, ∀ second ∈ Color.all,
        first ∈ (⟨bits⟩ : ColorSet) → second ∈ (⟨bits⟩ : ColorSet) →
          (position ⟨bits⟩ first < position ⟨bits⟩ second ↔
            [first, second].Sublist (printingOrder ⟨bits⟩)) := by
    decide +kernel
  intro bits
  exact decided bits first first.mem_all second second.mem_all

theorem leadPosition_single
    (whole : ColorSet)
    (color : Color) :
    whole.leadPosition (single color) = whole.position color := by
  rw [leadPosition, printingOrder_single]
  rfl

/-- A color comes before a pair unless the pair is printed with an earlier color first. -/
theorem compareIn_single
    {whole set : ColorSet}
    {lead other : Color}
    (printed : set.printingOrder = [lead, other])
    (color : Color) :
    whole.compareIn (single color) set =
      (compare (whole.position color) (whole.position lead)).then .lt := by
  have sizeOne : (single color).size = 1 := by
    rw [← length_printingOrder, printingOrder_single]
    rfl
  have sizeTwo : set.size = 2 := by
    rw [← length_printingOrder, printed]
    rfl
  have oneGroup : (single color).layoutGroup = set.layoutGroup := by
    rw [layoutGroup, layoutGroup, sizeOne, sizeTwo]
    rfl
  have leads : whole.leadPosition set = whole.position lead := by
    rw [leadPosition, printed]
    rfl
  rw [compareIn_of_layoutGroup_eq whole oneGroup, leadPosition_single, leads, sizeOne, sizeTwo]
  rfl

end ManaCost.ColorSet
