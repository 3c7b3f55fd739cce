import Mathlib
import ManaCost.Cost.Partition
import ManaCost.Proofs.Amount.Difference
import ManaCost.Proofs.Cost.Canonical
import ManaCost.Proofs.Cost.Sum

namespace ManaCost

/-!
# What the parts of two costs hold

Each part of a split takes copies of the symbols of one cost and an amount of generic mana, and it is
never `{0}`.  A cost other than `{0}` is told by its counts and its generic mana, so that the parts
are known by these.  The main statements are `isEmpty_leftOnly_iff`, by which nothing is left of a
cost that lies within the other, and `leftOnly_add_both`, by which exact parts make up their cost.
-/

namespace Cost

variable {cost left right : Cost}

theorem empty_ne_free :
    empty ≠ free := by
  decide +kernel

/-- The generic symbols of a cost other than `{0}` are those of its generic mana. -/
theorem filter_isGeneric_of_ne_free
    (notFree : cost ≠ free) :
    (cost.entries.filter fun entry => entry.1.isGeneric) = Partition.genericPart cost.generic := by
  unfold Partition.genericPart
  rcases cost.filter_isGeneric_entries with single | ⟨none, nothing⟩
  · have some : cost.generic ≠ .zero := by
      intro nothing
      have member : (.generic .zero, 1) ∈ cost.entries :=
        List.mem_of_mem_filter (nothing ▸ single ▸ List.mem_singleton_self _)
      exact notFree (eq_of_entries_eq ((entries_eq_of_mem_zero member).trans entries_free.symm))
    rw [single, if_pos (Bool.eq_true_of_not_eq_false (mt Amount.isPositive_eq_false_iff.1 some))]
  · rw [none, nothing]
    rfl

/-- Costs other than `{0}` are told apart by their counts and their generic mana. -/
theorem eq_of_ne_free
    (leftNotFree : left ≠ free)
    (rightNotFree : right ≠ free)
    (sameCount : ∀ symbol : Symbol, symbol.isGeneric = false →
      left.count symbol = right.count symbol)
    (sameGeneric : left.generic = right.generic) :
    left = right := by
  apply eq_of_count_eq_of_filter_eq sameCount
  rw [filter_isGeneric_of_ne_free leftNotFree, filter_isGeneric_of_ne_free rightNotFree,
    sameGeneric]

/-- A cost other than `{0}` is empty when it counts nothing and has no generic mana. -/
theorem isEmpty_iff_of_ne_free
    (notFree : cost ≠ free) :
    cost.isEmpty = true ↔
      (∀ symbol : Symbol, symbol.isGeneric = false → cost.count symbol = 0) ∧
        cost.generic = .zero := by
  have nothing (symbol : Symbol) : empty.count symbol = 0 := by
    rw [count, entries_empty, Tally.count_nil]
  have noGeneric : empty.generic = .zero := by
    rw [generic, entries_empty]
    rfl
  rw [isEmpty_iff]
  constructor
  · rintro rfl
    exact ⟨fun symbol _ => nothing symbol, noGeneric⟩
  · rintro ⟨none, noneGeneric⟩
    refine eq_of_ne_free notFree empty_ne_free ?_ (noneGeneric.trans noGeneric.symm)
    intro symbol notGeneric
    rw [none symbol notGeneric, nothing]

/-- A generic symbol of a cost other than `{0}` is some mana. -/
theorem generic_ne_zero_of_contains
    {amount : Amount}
    (notFree : cost ≠ free)
    (holds : cost.contains (.generic amount) = true) :
    cost.generic ≠ .zero := by
  intro nothing
  obtain ⟨entry, member, same⟩ := List.any_eq_true.1 holds
  have generic : entry.1.isGeneric = true := by
    rw [eq_of_beq same]
    rfl
  have kept : entry ∈ cost.entries.filter fun entry => entry.1.isGeneric :=
    List.mem_filter.2 ⟨member, generic⟩
  rw [filter_isGeneric_of_ne_free notFree, nothing] at kept
  exact absurd kept List.not_mem_nil

/-- A sum of costs without generic symbols has none. -/
theorem filter_isGeneric_add
    (leftNone : (left.entries.filter fun entry => entry.1.isGeneric) = [])
    (rightNone : (right.entries.filter fun entry => entry.1.isGeneric) = []) :
    ((left.add right).entries.filter fun entry => entry.1.isGeneric) = [] := by
  have absent {cost : Cost} {symbol : Symbol}
      (none : (cost.entries.filter fun entry => entry.1.isGeneric) = [])
      (held : symbol ∈ cost.entries.map Prod.fst) : ¬symbol.isGeneric = true := by
    obtain ⟨entry, member, rfl⟩ := List.mem_map.1 held
    exact List.filter_eq_nil_iff.1 none entry member
  rw [add, entries_ofTally, Tally.filter_isGeneric_polish]
  apply Tally.mergedGeneric_eq_nil
  rw [List.filter_eq_nil_iff]
  intro entry member
  rcases Tally.fst_mem_of_mem_merge (List.mem_of_mem_filter member) with inLeft | inRight
  · exact absent leftNone inLeft
  · exact absent rightNone inRight

/-- A sum of costs other than `{0}` is not `{0}` either, when they have no generic mana. -/
theorem add_ne_free
    (leftNotFree : left ≠ free)
    (rightNotFree : right ≠ free)
    (leftNone : left.generic = .zero)
    (rightNone : right.generic = .zero) :
    left.add right ≠ free := by
  have none {cost : Cost} (notFree : cost ≠ free) (nothing : cost.generic = .zero) :
      (cost.entries.filter fun entry => entry.1.isGeneric) = [] := by
    rw [filter_isGeneric_of_ne_free notFree, nothing]
    rfl
  have sum := filter_isGeneric_add (none leftNotFree leftNone) (none rightNotFree rightNone)
  intro isFree
  rw [isFree, entries_free] at sum
  exact absurd sum (by decide)

/-- A cost, where `{0}` is read as no cost. -/
def orEmpty
    (cost : Cost) :
    Cost :=
  if cost = free then empty else cost

theorem orEmpty_ne_free
    (cost : Cost) :
    cost.orEmpty ≠ free := by
  unfold orEmpty
  split
  · exact empty_ne_free
  · assumption

theorem count_orEmpty
    (cost : Cost)
    {symbol : Symbol}
    (notGeneric : symbol.isGeneric = false) :
    cost.orEmpty.count symbol = cost.count symbol := by
  unfold orEmpty
  split
  · rename_i isFree
    have different : Symbol.generic .zero ≠ symbol := by
      rintro rfl
      exact Bool.noConfusion notGeneric
    rw [isFree, count, count, entries_empty, entries_free, Tally.count_cons, if_neg different]
  · rfl

theorem generic_orEmpty
    (cost : Cost) :
    cost.orEmpty.generic = cost.generic := by
  unfold orEmpty
  split
  · rename_i isFree
    rw [isFree]
    decide +kernel
  · rfl

/-- A cost lies within another that has as much of everything. -/
structure Within
    (part whole : Cost) :
    Prop where
  count_le : ∀ symbol : Symbol, symbol.isGeneric = false → part.count symbol ≤ whole.count symbol
  generic_le : part.generic.steps ≤ whole.generic.steps

theorem Within.refl
    (cost : Cost) :
    cost.Within cost where
  count_le _ _ := le_rfl
  generic_le := le_rfl

theorem Within.trans
    {part middle whole : Cost}
    (within : part.Within middle)
    (next : middle.Within whole) :
    part.Within whole where
  count_le symbol notGeneric :=
    (within.count_le symbol notGeneric).trans (next.count_le symbol notGeneric)
  generic_le := within.generic_le.trans next.generic_le

end Cost

namespace Partition

open Cost

/-- Copies of the symbols of a cost and an amount of generic mana. -/
def portion
    (cost : Cost)
    (taken : Symbol → Nat → Nat)
    (amount : Amount) :
    Tally :=
  Tally.present (cost.entries.nonGeneric.map fun entry => (entry.1, taken entry.1 entry.2)) ++
    genericPart amount

section Portion

variable {cost : Cost} {taken : Symbol → Nat → Nat} (amount : Amount)

theorem genericPart_cases :
    genericPart amount = [(.generic amount, 1)] ∧ amount ≠ .zero ∨
      genericPart amount = [] ∧ amount = .zero := by
  unfold genericPart
  split
  · rename_i positive
    refine .inl ⟨rfl, ?_⟩
    rintro rfl
    exact absurd positive (by decide)
  · rename_i notPositive
    exact .inr ⟨rfl, Amount.isPositive_eq_false_iff.1 (Bool.eq_false_of_not_eq_true notPositive)⟩

theorem copies_genericPart
    {symbol : Symbol}
    (notGeneric : symbol.isGeneric = false) :
    (genericPart amount).copies symbol = 0 := by
  apply Tally.copies_eq_zero
  intro member
  rcases genericPart_cases amount with ⟨single, -⟩ | ⟨none, -⟩
  · rw [single, List.map_singleton, List.mem_singleton] at member
    rw [member] at notGeneric
    exact Bool.noConfusion notGeneric
  · rw [none] at member
    exact absurd member List.not_mem_nil

/-- A portion takes copies of each symbol by its count. -/
theorem copies_portion
    (some : ∀ symbol, taken symbol 0 = 0)
    {symbol : Symbol}
    (notGeneric : symbol.isGeneric = false) :
    (portion cost taken amount).copies symbol = taken symbol (cost.count symbol) := by
  rw [portion, Tally.copies_append, copies_genericPart amount notGeneric, Nat.add_zero,
    Tally.copies_present, cost.copies_mapCounts taken (some symbol) notGeneric]

/-- The generic symbols of a portion are those of its amount. -/
theorem filter_isGeneric_portion :
    ((portion cost taken amount).present.filter fun entry => entry.1.isGeneric) =
      genericPart amount := by
  have parts : (portion cost taken amount).present =
      Tally.present (cost.entries.nonGeneric.map fun entry => (entry.1, taken entry.1 entry.2)) ++
        (genericPart amount).present :=
    (List.filter_append _ _).trans <| congrArg (· ++ (genericPart amount).present) <|
      Tally.present_of_positive (Tally.positive_present _)
  rw [parts, List.filter_append, cost.filter_isGeneric_mapCounts taken, List.nil_append]
  rcases genericPart_cases amount with ⟨single, -⟩ | ⟨none, -⟩
  · rw [single]
    rfl
  · rw [none]
    rfl

theorem count_ofTally_portion
    (fewer : ∀ symbol copies, taken symbol copies ≤ copies)
    {symbol : Symbol}
    (notGeneric : symbol.isGeneric = false) :
    (ofTally (portion cost taken amount)).count symbol = taken symbol (cost.count symbol) := by
  have some (symbol : Symbol) : taken symbol 0 = 0 :=
    Nat.eq_zero_of_le_zero (fewer symbol 0)
  have few (color : Color) : taken (.half color) (cost.count (.half color)) ≤ 1 :=
    (fewer _ _).trans (cost.count_half_le_one color)
  rw [count_ofTally _ notGeneric,
    Tally.settledCounts_congr (fun _ => copies_portion amount some) notGeneric]
  exact Tally.settledCounts_eq few symbol

theorem generic_ofTally_portion :
    (ofTally (portion cost taken amount)).generic = amount := by
  rw [generic_ofTally, ← Tally.genericTotal_filter, filter_isGeneric_portion]
  rcases genericPart_cases amount with ⟨single, -⟩ | ⟨none, nothing⟩
  · rw [single, Tally.genericTotal_single]
  · rw [none, nothing]
    rfl

/-- A portion is never `{0}`. -/
theorem ofTally_portion_ne_free :
    ofTally (portion cost taken amount) ≠ free := by
  intro isFree
  have merged := congrArg (fun cost : Cost =>
    cost.entries.filter fun entry => entry.1.isGeneric) isFree
  simp only [entries_ofTally, Tally.filter_isGeneric_polish, entries_free] at merged
  rcases genericPart_cases amount with ⟨single, some⟩ | ⟨none, -⟩
  · rw [Tally.mergedGeneric_eq_single ((filter_isGeneric_portion amount).trans single)
      (.inl some)] at merged
    obtain ⟨⟩ := List.head_eq_of_cons_eq merged
    exact some rfl
  · rw [Tally.mergedGeneric_eq_nil ((filter_isGeneric_portion amount).trans none)] at merged
    exact absurd merged (by decide)

end Portion

/-- A split seen from the other side. -/
def swap
    (partition : Partition) :
    Partition where
  leftOnly := partition.rightOnly
  both := partition.both
  rightOnly := partition.leftOnly

section Of

variable (left right : Cost)

theorem leftOnly_of :
    (Partition.of left right).leftOnly =
      ofTally (portion left (fun symbol copies => copies - right.count symbol)
        (left.generic.difference right.generic)) := by
  rw [← Amount.difference_least]
  rfl

theorem both_of :
    (Partition.of left right).both =
      ofTally (portion left (fun symbol copies => min copies (right.count symbol))
        (left.generic.least right.generic)) :=
  rfl

/-- What only the right cost has is what only the left one has when they change places. -/
theorem rightOnly_eq_leftOnly :
    (Partition.of left right).rightOnly = (Partition.of right left).leftOnly := by
  rw [leftOnly_of, ← Amount.difference_least, Amount.least_comm]
  rfl

theorem count_leftOnly
    {symbol : Symbol}
    (notGeneric : symbol.isGeneric = false) :
    (Partition.of left right).leftOnly.count symbol = left.count symbol - right.count symbol := by
  rw [leftOnly_of, count_ofTally_portion _ (fun _ _ => Nat.sub_le _ _) notGeneric]

theorem generic_leftOnly :
    (Partition.of left right).leftOnly.generic = left.generic.difference right.generic := by
  rw [leftOnly_of, generic_ofTally_portion]

theorem leftOnly_ne_free :
    (Partition.of left right).leftOnly ≠ free := by
  rw [leftOnly_of]
  exact ofTally_portion_ne_free _

theorem count_both
    {symbol : Symbol}
    (notGeneric : symbol.isGeneric = false) :
    (Partition.of left right).both.count symbol = min (left.count symbol) (right.count symbol) := by
  rw [both_of, count_ofTally_portion _ (fun _ _ => Nat.min_le_left _ _) notGeneric]

theorem generic_both :
    (Partition.of left right).both.generic = left.generic.least right.generic := by
  rw [both_of, generic_ofTally_portion]

theorem both_ne_free :
    (Partition.of left right).both ≠ free := by
  rw [both_of]
  exact ofTally_portion_ne_free _

theorem both_comm :
    (Partition.of left right).both = (Partition.of right left).both := by
  refine eq_of_ne_free (both_ne_free left right) (both_ne_free right left) ?_ ?_
  · intro symbol notGeneric
    rw [count_both left right notGeneric, count_both right left notGeneric, min_comm]
  · rw [generic_both, generic_both, Amount.least_comm]

/-- Costs that change places change the sides of their split. -/
theorem of_swap :
    Partition.of right left = (Partition.of left right).swap := by
  rw [swap, rightOnly_eq_leftOnly left right, both_comm left right,
    ← rightOnly_eq_leftOnly right left]

/-- Only one cost can have generic mana that the other lacks. -/
theorem generic_leftOnly_or :
    (Partition.of left right).leftOnly.generic = .zero ∨
      (Partition.of left right).rightOnly.generic = .zero := by
  rw [rightOnly_eq_leftOnly, generic_leftOnly, generic_leftOnly, Amount.difference_eq_zero_iff,
    Amount.difference_eq_zero_iff]
  exact le_total _ _

/-- Nothing is left of a cost exactly when it lies within the other. -/
theorem isEmpty_leftOnly_iff :
    (Partition.of left right).leftOnly.isEmpty = true ↔ left.Within right := by
  rw [isEmpty_iff_of_ne_free (leftOnly_ne_free left right), generic_leftOnly,
    Amount.difference_eq_zero_iff]
  constructor
  · rintro ⟨none, covered⟩
    refine ⟨fun symbol notGeneric => ?_, covered⟩
    rw [← Nat.sub_eq_zero_iff_le, ← count_leftOnly left right notGeneric, none symbol notGeneric]
  · intro within
    refine ⟨fun symbol notGeneric => ?_, within.generic_le⟩
    rw [count_leftOnly left right notGeneric]
    exact Nat.sub_eq_zero_of_le (within.count_le symbol notGeneric)

theorem isEmpty_rightOnly_iff :
    (Partition.of left right).rightOnly.isEmpty = true ↔ right.Within left := by
  rw [rightOnly_eq_leftOnly, isEmpty_leftOnly_iff]

/-- What only a cost has and what both have make up the cost. -/
theorem leftOnly_add_both
    (leftExact : left.generic.IsExact)
    (rightExact : right.generic.IsExact) :
    (Partition.of left right).leftOnly.add (Partition.of left right).both = left.orEmpty := by
  have steps : ((Partition.of left right).leftOnly.add
      (Partition.of left right).both).generic.steps = left.generic.steps := by
    have total := Amount.steps_difference_add_least leftExact rightExact
    rw [← generic_leftOnly, ← generic_both] at total
    rw [steps_generic_add, total]
    · rw [generic_leftOnly]
      exact Amount.isExact_difference leftExact rightExact
    · rw [generic_both]
      exact Amount.isExact_least leftExact rightExact
    · rw [total]
      exact leftExact.isExactTotal
  have generic := Amount.steps_injective steps
  refine eq_of_ne_free ?_ (orEmpty_ne_free left) ?_ (generic.trans (generic_orEmpty left).symm)
  · intro isFree
    have nothing : left.generic = .zero := by
      rw [← generic, isFree]
      decide +kernel
    refine add_ne_free (leftOnly_ne_free left right) (both_ne_free left right) ?_ ?_ isFree
    · rw [generic_leftOnly, nothing, Amount.difference_eq_zero_iff, Amount.steps_zero]
      exact zero_le
    · rw [generic_both, nothing]
      exact Amount.least_eq_left (Amount.steps_zero ▸ zero_le)
  · intro symbol notGeneric
    have parts (other : Symbol) (otherNotGeneric : other.isGeneric = false) :
        (Partition.of left right).leftOnly.count other + (Partition.of left right).both.count other =
          left.count other := by
      rw [count_leftOnly left right otherNotGeneric, count_both left right otherNotGeneric]
      omega
    rw [count_orEmpty left notGeneric, count_add _ _ notGeneric,
      Tally.settledCounts_congr parts notGeneric,
      Tally.settledCounts_eq left.count_half_le_one]

end Of

end Partition

end ManaCost
