import Mathlib
import ManaCost.Proofs.ColorSet.Layout

namespace ManaCost

/-!
# The colors that a set prints

The bits of a color set and its entry in the catalog tell of the same colors: the main statement is
`ColorSet.mem_printingOrder`.
-/

namespace Color

/-- Two colors of one letter are one color. -/
theorem letter_injective :
    Function.Injective letter := by
  intro left right same
  cases left <;> cases right <;> first | rfl | exact absurd same (by decide)

end Color

namespace ColorSet

/-- A set holds given colors and no others, by its bits and in its printing order, where it has
each of them once. -/
structure HoldsExactly
    (set : ColorSet)
    (colors : Set Color) :
    Prop where
  mem_iff : ∀ color, color ∈ set ↔ color ∈ colors
  mem_printingOrder_iff : ∀ color, color ∈ set.printingOrder ↔ color ∈ colors
  nodup : set.printingOrder.Nodup

theorem mem_ofList
    {colors : List Color}
    {color : Color} :
    color ∈ ofList colors ↔ color ∈ colors := by
  have singles : ofList colors = unionAll (colors.map single) := by
    rw [ofList, unionAll, List.foldl_map]
  simp [singles, mem_unionAll]

/-- The printing order of a set lists the colors that its bits tell. -/
theorem mem_printingOrder
    {set : ColorSet}
    {color : Color} :
    color ∈ set.printingOrder ↔ color ∈ set := by
  rw [← mem_ofList, ofList_printingOrder]

theorem holdsExactly_iff
    {set : ColorSet}
    {colors : Set Color} :
    set.HoldsExactly colors ↔ ∀ color, color ∈ set ↔ color ∈ colors where
  mp holds := holds.mem_iff
  mpr same := {
    mem_iff := same
    mem_printingOrder_iff := fun color => mem_printingOrder.trans (same color)
    nodup := set.nodup_printingOrder }

/-- A set has the letters of its colors. -/
theorem letter_mem_letters
    {set : ColorSet}
    {color : Color} :
    color.letter ∈ set.letters ↔ color ∈ set := by
  rw [letters, List.mem_map_of_injective Color.letter_injective, mem_printingOrder]

end ColorSet

end ManaCost
