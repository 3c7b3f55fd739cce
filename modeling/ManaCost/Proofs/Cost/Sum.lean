import Mathlib
import ManaCost.Cost.Algebra
import ManaCost.Proofs.Cost.Required
import ManaCost.Proofs.Tally.Merge

namespace ManaCost.Cost

/-!
# What a sum of costs holds

A sum counts the symbols of both costs and then settles half pips, so that two half pips of one
color become a pip that neither cost held.  The main statements are `count_add` and
`generic_add`.
-/

variable {left right : Cost}

theorem weight_genericSteps_entries
    (cost : Cost) :
    cost.entries.weight Symbol.genericSteps = cost.generic.steps := by
  rw [← Tally.weight_filter_isGeneric]
  rcases cost.filter_isGeneric_entries with single | ⟨none, nothing⟩
  · simp [single, Symbol.manaValue, PureSymbol.manaValue]
  · simp [none, nothing]

theorem genericTotal_merge_single
    (left right : Amount) :
    (Tally.merge [(.generic left, 1)] [(.generic right, 1)]).genericTotal = left.add right := by
  by_cases same : left = right
  · subst same
    have merged : Tally.merge [(.generic left, 1)] [(.generic left, 1)] = [(.generic left, 2)] := by
      simp [Tally.merge, Tally.bump]
    rw [merged]
    change Amount.zero.add (left.scale 2) = left.add left
    rw [Amount.zero_add, Amount.scale_two]
  · have merged : Tally.merge [(.generic left, 1)] [(.generic right, 1)] =
        [(.generic left, 1), (.generic right, 1)] := by
      simp [Tally.merge, Tally.bump, same]
    rw [merged]
    change (Amount.zero.add (left.scale 1)).add (right.scale 1) = left.add right
    rw [Amount.zero_add, Amount.scale_one, Amount.scale_one]

/-- The generic mana of a sum is that of both costs, rounded once. -/
theorem generic_add
    (left right : Cost) :
    (left.add right).generic = left.generic.add right.generic := by
  have positive := left.positive_entries.merge right.positive_entries
  rw [add, generic_ofTally, Tally.present_of_positive positive, ← Tally.genericTotal_filter,
    Tally.filter_merge Symbol.isGeneric]
  rcases left.filter_isGeneric_entries with leftSingle | ⟨leftNone, leftNothing⟩ <;>
    rcases right.filter_isGeneric_entries with rightSingle | ⟨rightNone, rightNothing⟩
  · rw [leftSingle, rightSingle, genericTotal_merge_single]
  · rw [leftSingle, rightNone, rightNothing, Amount.add_comm, Amount.zero_add]
    exact Tally.genericTotal_single _
  · rw [leftNone, rightSingle, leftNothing, Amount.zero_add]
    exact Tally.genericTotal_single _
  · rw [leftNone, rightNone, leftNothing, rightNothing, Amount.zero_add]
    rfl

/-- The generic mana of a sum comes to the generic mana of both costs together. -/
theorem comesTo_generic_add
    (leftExact : left.generic.IsExact)
    (rightExact : right.generic.IsExact) :
    (left.add right).generic.ComesTo (left.generic.steps + right.generic.steps) := by
  rw [generic_add]
  exact (Amount.comesTo_of_isExact leftExact).add (Amount.comesTo_of_isExact rightExact)

/-- The generic mana of a sum with an exact total is that of both costs together. -/
theorem steps_generic_add
    (leftExact : left.generic.IsExact)
    (rightExact : right.generic.IsExact)
    (exact : Amount.IsExactTotal (left.generic.steps + right.generic.steps)) :
    (left.add right).generic.steps = left.generic.steps + right.generic.steps :=
  (comesTo_generic_add leftExact rightExact).steps_eq exact

theorem isExact_generic_add
    (leftExact : left.generic.IsExact)
    (rightExact : right.generic.IsExact)
    (exact : Amount.IsExactTotal (left.generic.steps + right.generic.steps)) :
    (left.add right).generic.IsExact :=
  (comesTo_generic_add leftExact rightExact).isExact exact

theorem copies_merge_entries
    (left right : Cost)
    (symbol : Symbol) :
    (left.entries.merge right.entries).copies symbol = left.count symbol + right.count symbol := by
  rw [Tally.copies_merge, copies_entries, copies_entries]

/-- A sum holds the settled counts of both costs. -/
theorem count_add
    (left right : Cost)
    {symbol : Symbol}
    (notGeneric : symbol.isGeneric = false) :
    (left.add right).count symbol =
      Tally.settledCounts (fun other => left.count other + right.count other) symbol := by
  rw [add, count_ofTally _ notGeneric]
  exact congrFun (congrArg _ (funext (copies_merge_entries left right))) symbol

theorem count_half_add
    (left right : Cost)
    (color : Color) :
    (left.add right).count (.half color) =
      (left.count (.half color) + right.count (.half color)) % 2 :=
  count_add left right rfl

/-- Symbols that are neither pips nor half pips are counted together as they are. -/
theorem count_add_of_ne
    (left right : Cost)
    {symbol : Symbol}
    (notGeneric : symbol.isGeneric = false)
    (notHalf : ∀ color, Symbol.half color ≠ symbol)
    (notPip : ∀ color, Symbol.pip color ≠ symbol) :
    (left.add right).count symbol = left.count symbol + right.count symbol := by
  rw [count_add left right notGeneric]
  unfold Tally.settledCounts
  split
  · rename_i color
    exact absurd rfl (notPip color)
  · rename_i color
    exact absurd rfl (notHalf color)
  · rfl

/-- What is added on both sides cancels in every count: the half pips of a sum tell those of its
parts, and these tell the pips that they make. -/
theorem count_eq_of_count_add_eq
    {addend : Cost}
    (same : ∀ symbol : Symbol, symbol.isGeneric = false →
      (left.add addend).count symbol = (right.add addend).count symbol)
    {symbol : Symbol}
    (notGeneric : symbol.isGeneric = false) :
    left.count symbol = right.count symbol := by
  have sameHalf (color : Color) : left.count (.half color) = right.count (.half color) := by
    have parity := same (.half color) rfl
    have leftFew := left.count_half_le_one color
    have rightFew := right.count_half_le_one color
    rw [count_half_add, count_half_add] at parity
    omega
  have together := same symbol notGeneric
  rw [count_add _ _ notGeneric, count_add _ _ notGeneric] at together
  unfold Tally.settledCounts at together
  dsimp only at together
  split at together
  · rename_i color
    rw [sameHalf color] at together
    exact Nat.add_right_cancel (Nat.add_right_cancel together)
  · exact sameHalf _
  · exact Nat.add_right_cancel together

/-- Of anything but half pips a sum holds no less than either cost. -/
theorem count_le_count_add
    (left right : Cost)
    {symbol : Symbol}
    (notGeneric : symbol.isGeneric = false)
    (notHalf : ∀ color, Symbol.half color ≠ symbol) :
    left.count symbol ≤ (left.add right).count symbol := by
  rw [count_add left right notGeneric]
  unfold Tally.settledCounts
  split
  · exact (Nat.le_add_right _ _).trans (Nat.le_add_right _ _)
  · rename_i color
    exact absurd rfl (notHalf color)
  · exact Nat.le_add_right _ _

/-- Costs without a half pip in common are counted together as they are. -/
theorem count_add_of_apart
    (apart : ∀ color, left.count (.half color) = 0 ∨ right.count (.half color) = 0)
    {symbol : Symbol}
    (notGeneric : symbol.isGeneric = false) :
    (left.add right).count symbol = left.count symbol + right.count symbol := by
  rw [count_add left right notGeneric]
  apply Tally.settledCounts_eq
  intro color
  have leftFew := left.count_half_le_one color
  have rightFew := right.count_half_le_one color
  rcases apart color with none | none
  · simpa [none] using rightFew
  · simpa [none] using leftFew

/-- A sum of pure costs is pure. -/
theorem isPure_add
    (leftPure : left.isPure = true)
    (rightPure : right.isPure = true) :
    (left.add right).isPure = true := by
  rw [isPure_iff] at leftPure rightPure ⊢
  intro symbol notPure
  cases symbol with
  | single option => simp [Symbol.isPure] at notPure
  | hybrid options =>
      have settled : (left.add right).count (.hybrid options) =
          left.count (.hybrid options) + right.count (.hybrid options) :=
        count_add left right rfl
      rw [settled, leftPure _ notPure, rightPure _ notPure]

end ManaCost.Cost
