import Mathlib
import ManaCost.Proofs.Cost.Counts
import ManaCost.Proofs.Symbol.Order
import ManaCost.Symbol.Reader

namespace ManaCost

/-!
# The canonical form of costs

A canonical tally counts every symbol at least once, has one generic symbol at most, no pair of
half pips, and its symbols in strictly ascending order of its own colors.  Polishing gives canonical
tallies, and it gives a canonical tally back from any tally with the same symbols.
-/

namespace Tally

/-- What is kept as the content of a cost. -/
structure Canonical
    (entries : Tally) :
    Prop where
  counted : ∀ entry ∈ entries, 1 ≤ entry.2
  oneGeneric :
    (entries.filter fun entry => entry.1.isGeneric) = [] ∨
      ∃ amount, (entries.filter fun entry => entry.1.isGeneric) = [(.generic amount, 1)]
  /-- The amount passes the check that refuses what is negative and what is not a number. -/
  amounts : ∀ amount copies, (.generic amount, copies) ∈ entries →
    Symbol.genericOf (.of false amount) = .ok (.generic amount)
  zeroAlone : ∀ copies, (.generic .zero, copies) ∈ entries → entries = [(.generic .zero, 1)]
  halfOnce : ∀ color copies, (.half color, copies) ∈ entries → copies = 1
  ascending : entries.Pairwise fun left right =>
    left.1.compareIn entries.color right.1 = .lt

instance (whole : ColorSet) : Std.TransCmp (compareEntries whole) :=
  inferInstanceAs (Std.TransCmp (compareThrough (Symbol.compareIn whole) Prod.fst))

theorem color_eq_of_perm
    {left right : Tally}
    (same : left.Perm right) :
    left.color = right.color :=
  ColorSet.unionAll_eq_of_perm (same.map _)

/-- Polishing puts symbols in strictly ascending order. -/
theorem pairwise_polish
    (tally : Tally) :
    tally.polish.Pairwise fun left right =>
      left.1.compareIn tally.polish.color right.1 = .lt := by
  have sorted : tally.polish.Pairwise fun left right =>
      (compareEntries tally.polish.color left right).isLE := by
    rw [color_eq_of_perm tally.perm_polish, polish]
    exact pairwise_arrange _ _
  refine pairwise_lt_of_separates (compareEntries tally.polish.color) sorted ?_
  refine (List.pairwise_map.1 (distinct_polish tally)).imp ?_
  intro left right different same
  exact different (Symbol.eq_of_compareIn_eq same)

/-- Polishing gives canonical tallies. -/
theorem canonical_polish
    (tally : Tally) :
    tally.polish.Canonical where
  counted := positive_polish tally
  oneGeneric := by
    rw [filter_isGeneric_polish]
    rcases mergedGeneric_cases tally with single | ⟨none, -⟩
    · exact .inr ⟨_, single⟩
    · exact .inl none
  amounts _ _ _ := rfl
  zeroAlone copies member := by
    have kept : (.generic .zero, copies) ∈ (Cost.ofTally tally).entries := member
    exact Cost.entries_eq_of_mem_zero kept
  halfOnce color copies member := by
    have kept : (.half color, copies) ∈ (Cost.ofTally tally).entries := member
    obtain ⟨some, counted⟩ := Cost.mem_entries_iff.1 kept
    have few := (Cost.ofTally tally).count_half_le_one color
    rw [counted] at few
    exact Nat.le_antisymm few some
  ascending := pairwise_polish tally

namespace Canonical

variable {entries tally : Tally}

theorem distinct
    (canonical : entries.Canonical) :
    entries.Distinct := by
  refine List.pairwise_map.2 (canonical.ascending.imp ?_)
  intro left right before same
  have itself : right.1.compareIn entries.color right.1 = .eq := Std.ReflCmp.compare_self
  rw [same, itself] at before
  exact absurd before (by decide)

/-- A canonical tally has no pair of half pips. -/
theorem copies_half_le_one
    (canonical : entries.Canonical)
    (color : Color) :
    entries.copies (.half color) ≤ 1 := by
  rw [← count_eq_copies canonical.distinct]
  by_contra many
  have member : (.half color, entries.count (.half color)) ∈ entries :=
    (mem_iff_count canonical.distinct canonical.counted).2 ⟨by omega, rfl⟩
  exact many (canonical.halfOnce color _ member).le

end Canonical

namespace Canonical

variable {entries tally : Tally}

theorem length_filter_isGeneric_le_one
    (canonical : entries.Canonical) :
    (entries.filter fun entry => entry.1.isGeneric).length ≤ 1 := by
  rcases canonical.oneGeneric with none | ⟨amount, single⟩
  · rw [none]
    exact Nat.zero_le 1
  · rw [single]
    exact Nat.le_refl 1

/-- Settling leaves the pips of a canonical tally. -/
theorem settledPips_perm
    (canonical : entries.Canonical)
    (same : tally.present.Perm entries) :
    tally.settledPips.Perm entries.nonGeneric := by
  have nonGenericDistinct : entries.nonGeneric.Distinct := canonical.distinct.filter _
  refine perm_of_count_eq (distinct_settledPips tally) (positive_present _) nonGenericDistinct
    (fun entry member => canonical.counted entry (List.mem_filter.1 member).1) ?_
  intro symbol
  have sameCopies : tally.present.nonGeneric.copies = entries.nonGeneric.copies :=
    funext (copies_eq_of_perm (same.filter _))
  have few (color : Color) : entries.nonGeneric.copies (.half color) ≤ 1 := by
    rw [copies_nonGeneric rfl]
    exact canonical.copies_half_le_one color
  rw [count_settledPips, sameCopies, settledCounts_eq few, count_eq_copies nonGenericDistinct]

/-- Merging leaves the generic symbol of a canonical tally. -/
theorem mergedGeneric_eq
    (canonical : entries.Canonical)
    (same : tally.present.Perm entries) :
    tally.mergedGeneric = entries.filter fun entry => entry.1.isGeneric := by
  have sameGeneric : (tally.present.filter fun entry => entry.1.isGeneric) =
      entries.filter fun entry => entry.1.isGeneric :=
    eq_of_perm_of_length_le_one (same.filter _) canonical.length_filter_isGeneric_le_one
  rcases canonical.oneGeneric with none | ⟨amount, single⟩
  · rw [none]
    exact mergedGeneric_eq_nil (sameGeneric.trans none)
  · rw [single]
    refine mergedGeneric_eq_single (sameGeneric.trans single) ?_
    by_cases nothing : amount = .zero
    · refine .inr ?_
      have member : (.generic .zero, 1) ∈ entries.filter fun entry => entry.1.isGeneric := by
        rw [single, nothing]
        exact List.mem_singleton_self _
      have pips := canonical.settledPips_perm same
      rw [canonical.zeroAlone 1 (List.mem_filter.1 member).1] at pips
      exact pips.eq_nil
    · exact .inl nothing

/-- Polishing gives a canonical tally back from any tally with the same present symbols. -/
theorem polish_eq
    (canonical : entries.Canonical)
    (same : tally.present.Perm entries) :
    tally.polish = entries := by
  have settled : tally.settled.Perm entries := by
    have parts : (entries.nonGeneric ++ entries.filter fun entry => entry.1.isGeneric).Perm
        entries := by
      have divided :=
        List.filter_append_perm (fun entry : Symbol × Nat => !entry.1.isGeneric) entries
      simpa only [nonGeneric, Bool.not_not] using divided
    rw [Tally.settled, canonical.mergedGeneric_eq same]
    exact ((canonical.settledPips_perm same).append_right _).trans parts
  have settledDistinct : tally.settled.Distinct := canonical.distinct.perm settled.symm
  calc
    tally.polish = arrange (compareEntries entries.color) tally.settled := by
      rw [polish, color_eq_of_perm settled]
    _ = arrange (compareEntries entries.color) entries := by
      refine arrange_eq_of_perm _ settled ?_
      intro first firstMember second secondMember equal
      exact List.inj_on_of_nodup_map settledDistinct firstMember secondMember
        (Symbol.eq_of_compareIn_eq equal)
    _ = entries := by
      refine arrange_of_pairwise _ (canonical.ascending.imp ?_)
      intro left right before
      rw [compareEntries, before]
      rfl

end Canonical

end Tally

namespace Cost

theorem canonical_entries
    (cost : Cost) :
    cost.entries.Canonical := by
  obtain ⟨tally, shape⟩ := cost.polished
  rw [← shape]
  exact Tally.canonical_polish tally

/-- A cost is given back by any tally that counts its symbols as often. -/
theorem ofTally_eq_of_count_eq
    {cost : Cost}
    {tally : Tally}
    (distinct : tally.Distinct)
    (same : ∀ symbol, tally.count symbol = cost.count symbol) :
    ofTally tally = cost := by
  have permuted : tally.present.Perm cost.entries := by
    refine Tally.perm_of_count_eq distinct.present (Tally.positive_present _)
      cost.distinct_entries cost.positive_entries ?_
    intro symbol
    rw [Tally.count_present distinct, same, count]
  exact eq_of_entries_eq (cost.canonical_entries.polish_eq permuted)

theorem eq_of_perm_entries
    {left right : Cost}
    (same : left.entries.Perm right.entries) :
    left = right := by
  have present := Tally.present_of_positive left.positive_entries
  apply eq_of_entries_eq
  calc
    left.entries = left.entries.polish :=
      (left.canonical_entries.polish_eq (List.Perm.of_eq present)).symm
    _ = right.entries := right.canonical_entries.polish_eq ((List.Perm.of_eq present).trans same)

theorem perm_nonGeneric_of_count_eq
    {left right : Cost}
    (same : ∀ symbol : Symbol, symbol.isGeneric = false → left.count symbol = right.count symbol) :
    left.entries.nonGeneric.Perm right.entries.nonGeneric := by
  have positive (cost : Cost) : cost.entries.nonGeneric.Positive :=
    fun entry member => cost.positive_entries entry (List.mem_of_mem_filter member)
  refine Tally.perm_of_count_eq left.distinct_nonGeneric_entries (positive left)
    right.distinct_nonGeneric_entries (positive right) fun symbol => ?_
  rw [count_nonGeneric_entries, count_nonGeneric_entries]
  cases kind : symbol.isGeneric with
  | true => rfl
  | false => simpa using same symbol kind

/-- A cost with symbols has generic mana when it counts what `{0}` counts. -/
theorem filter_isGeneric_ne_nil
    {free cost : Cost}
    (zero : (free.entries.filter fun entry => entry.1.isGeneric) = [(.generic .zero, 1)])
    (same : ∀ symbol : Symbol, symbol.isGeneric = false → cost.count symbol = free.count symbol)
    (some : cost.isEmpty = false) :
    (cost.entries.filter fun entry => entry.1.isGeneric) ≠ [] := by
  have member : (.generic .zero, 1) ∈ free.entries :=
    List.mem_of_mem_filter (zero ▸ List.mem_singleton_self _)
  have nothing := perm_nonGeneric_of_count_eq same
  rw [entries_eq_of_mem_zero member] at nothing
  have parts := List.filter_append_perm (fun entry : Symbol × Nat => !entry.1.isGeneric)
    cost.entries
  intro none
  simp only [Bool.not_not, none, List.append_nil] at parts
  have empty := (parts.symm.trans nothing).eq_nil
  simp [isEmpty, empty] at some

/-- Costs are told apart by their counts and their generic symbols. -/
theorem eq_of_count_eq_of_filter_eq
    {left right : Cost}
    (sameCount : ∀ symbol : Symbol, symbol.isGeneric = false →
      left.count symbol = right.count symbol)
    (sameGeneric : (left.entries.filter fun entry => entry.1.isGeneric) =
      right.entries.filter fun entry => entry.1.isGeneric) :
    left = right := by
  have parts (cost : Cost) :=
    List.filter_append_perm (fun entry : Symbol × Nat => entry.1.isGeneric) cost.entries
  apply eq_of_perm_entries
  refine (parts left).symm.trans (List.Perm.trans ?_ (parts right))
  rw [sameGeneric]
  exact (perm_nonGeneric_of_count_eq sameCount).append_left _

/-- Costs with symbols are told apart by their counts and their generic mana. -/
theorem eq_of_count_eq_of_generic_eq
    {left right : Cost}
    (leftSome : left.isEmpty = false)
    (rightSome : right.isEmpty = false)
    (sameCount : ∀ symbol : Symbol, symbol.isGeneric = false →
      left.count symbol = right.count symbol)
    (sameGeneric : left.generic = right.generic) :
    left = right := by
  apply eq_of_count_eq_of_filter_eq sameCount
  rcases left.filter_isGeneric_entries with leftSingle | ⟨leftNone, leftNothing⟩ <;>
    rcases right.filter_isGeneric_entries with rightSingle | ⟨rightNone, rightNothing⟩
  · rw [leftSingle, rightSingle, sameGeneric]
  · rw [sameGeneric, rightNothing] at leftSingle
    have sameBack := fun symbol kind => (sameCount symbol kind).symm
    exact absurd rightNone (filter_isGeneric_ne_nil leftSingle sameBack rightSome)
  · rw [← sameGeneric, leftNothing] at rightSingle
    exact absurd leftNone (filter_isGeneric_ne_nil rightSingle sameCount leftSome)
  · rw [leftNone, rightNone]

/-- The symbols of a cost hold each symbol as often as it is counted. -/
theorem count_symbols
    (cost : Cost)
    (symbol : Symbol) :
    cost.symbols.count symbol = cost.count symbol := by
  rw [← copies_entries, symbols, Tally.count_flatMap_replicate]

/-- A cost is given back by its own symbols. -/
theorem ofSymbols_symbols
    (cost : Cost) :
    ofSymbols cost.symbols = cost := by
  refine ofTally_eq_of_count_eq (Tally.distinct_ofSymbols _) ?_
  intro symbol
  rw [Tally.count_ofSymbols, count_symbols]

/-- A cost is given back by its own counts. -/
theorem ofTally_ofCounts
    (cost : Cost) :
    ofTally (.ofCounts (cost.entries.map fun entry => (entry.1, (entry.2 : Int)))) = cost := by
  rw [Tally.ofCounts_of_distinct cost.distinct_entries]
  exact ofTally_eq_of_count_eq cost.distinct_entries fun _ => rfl

end Cost

end ManaCost
