import Mathlib
import ManaCost.Proofs.Tally.Polish

namespace ManaCost

/-!
# Costs as counts

A cost holds distinct symbols, each at least once, one generic symbol at most and no pair of half
pips.  What it holds is told by `Cost.count` for symbols that are not generic and by `Cost.generic`
for generic mana.
-/

namespace Cost

@[simp] theorem entries_ofTally
    (tally : Tally) :
    (ofTally tally).entries = tally.polish :=
  rfl

theorem eq_of_entries_eq
    {left right : Cost}
    (same : left.entries = right.entries) :
    left = right := by
  cases left
  cases right
  obtain rfl := same
  rfl

theorem entries_free :
    free.entries = [(.generic .zero, 1)] := by
  decide +kernel

theorem entries_empty :
    empty.entries = [] := by
  decide +kernel

theorem isEmpty_iff
    {cost : Cost} :
    cost.isEmpty = true ↔ cost = empty := by
  rw [isEmpty, List.isEmpty_iff, ← entries_empty]
  exact ⟨eq_of_entries_eq, congrArg entries⟩

theorem distinct_entries
    (cost : Cost) :
    cost.entries.Distinct := by
  obtain ⟨tally, shape⟩ := cost.polished
  rw [← shape]
  exact Tally.distinct_polish tally

theorem positive_entries
    (cost : Cost) :
    cost.entries.Positive := by
  obtain ⟨tally, shape⟩ := cost.polished
  rw [← shape]
  exact Tally.positive_polish tally

/-- The copies of a symbol in a cost are its count. -/
theorem copies_entries
    (cost : Cost)
    (symbol : Symbol) :
    cost.entries.copies symbol = cost.count symbol :=
  (Tally.count_eq_copies cost.distinct_entries symbol).symm

theorem distinct_nonGeneric_entries
    (cost : Cost) :
    cost.entries.nonGeneric.Distinct :=
  cost.distinct_entries.filter _

theorem count_nonGeneric_entries
    (cost : Cost)
    (symbol : Symbol) :
    cost.entries.nonGeneric.count symbol = if symbol.isGeneric then 0 else cost.count symbol := by
  have copies := Tally.copies_filter (fun symbol => !symbol.isGeneric) cost.entries symbol
  rw [copies_entries] at copies
  rw [Tally.count_eq_copies cost.distinct_nonGeneric_entries, Tally.nonGeneric, copies]
  cases symbol.isGeneric <;> rfl

/-- The counts of a cost change as its entries do. -/
theorem copies_mapCounts
    (cost : Cost)
    (change : Symbol → Nat → Nat)
    {symbol : Symbol}
    (nothing : change symbol 0 = 0)
    (notGeneric : symbol.isGeneric = false) :
    Tally.copies (cost.entries.nonGeneric.map fun entry => (entry.1, change entry.1 entry.2))
        symbol =
      change symbol (cost.count symbol) := by
  rw [← Tally.count_eq_copies (cost.distinct_nonGeneric_entries.mapCounts change),
    Tally.count_mapCounts change _ nothing, count_nonGeneric_entries, notGeneric,
    if_neg Bool.false_ne_true]

/-- Changed counts of symbols that are not generic have no generic symbols. -/
theorem filter_isGeneric_mapCounts
    (cost : Cost)
    (change : Symbol → Nat → Nat) :
    ((Tally.present (cost.entries.nonGeneric.map fun entry =>
      (entry.1, change entry.1 entry.2))).filter fun entry => entry.1.isGeneric) = [] := by
  rw [List.filter_eq_nil_iff]
  intro entry member
  obtain ⟨source, sourceMember, rfl⟩ := List.mem_map.1 (List.mem_of_mem_filter member)
  simpa using (List.mem_filter.1 sourceMember).2

/-- A cost has an entry for each symbol that it counts. -/
theorem mem_entries_iff
    {cost : Cost}
    {entry : Symbol × Nat} :
    entry ∈ cost.entries ↔ 0 < entry.2 ∧ cost.count entry.1 = entry.2 :=
  Tally.mem_iff_count cost.distinct_entries cost.positive_entries

/-- The cost of a tally has the settled counts of its symbols. -/
theorem count_ofTally
    (tally : Tally)
    {symbol : Symbol}
    (notGeneric : symbol.isGeneric = false) :
    (ofTally tally).count symbol = Tally.settledCounts tally.copies symbol := by
  rw [count, entries_ofTally, Tally.count_polish tally notGeneric]

/-- The cost of a tally has the generic mana that is present there. -/
theorem generic_ofTally
    (tally : Tally) :
    (ofTally tally).generic = tally.present.genericTotal := by
  rw [generic, entries_ofTally, Tally.genericTotal_polish]

/-- A cost has no pair of half pips. -/
theorem count_half_le_one
    (cost : Cost)
    (color : Color) :
    cost.count (.half color) ≤ 1 := by
  obtain ⟨tally, shape⟩ := cost.polished
  have settled : cost.count (.half color) = tally.copies (.half color) % 2 := by
    rw [count, ← shape, Tally.count_polish tally rfl]
    rfl
  omega

/-- The generic symbols of a cost: its generic mana as one symbol, or none. -/
theorem filter_isGeneric_entries
    (cost : Cost) :
    (cost.entries.filter fun entry => entry.1.isGeneric) = [(.generic cost.generic, 1)] ∨
      (cost.entries.filter fun entry => entry.1.isGeneric) = [] ∧ cost.generic = .zero := by
  obtain ⟨tally, shape⟩ := cost.polished
  have total : cost.generic = tally.present.genericTotal := by
    rw [generic, ← shape, Tally.genericTotal_polish]
  rw [total, ← shape, Tally.filter_isGeneric_polish]
  exact Tally.mergedGeneric_cases tally

/-- A generic symbol of a cost has all its generic mana and is there once. -/
theorem eq_of_mem_of_isGeneric
    {cost : Cost}
    {entry : Symbol × Nat}
    (member : entry ∈ cost.entries)
    (generic : entry.1.isGeneric = true) :
    entry = (.generic cost.generic, 1) := by
  have kept : entry ∈ cost.entries.filter fun entry => entry.1.isGeneric :=
    List.mem_filter.2 ⟨member, generic⟩
  rcases cost.filter_isGeneric_entries with single | ⟨none, -⟩
  · rw [single] at kept
    exact List.mem_singleton.1 kept
  · rw [none] at kept
    exact absurd kept List.not_mem_nil

/-- Generic mana of amount zero is the only symbol of its cost. -/
theorem entries_eq_of_mem_zero
    {cost : Cost}
    {copies : Nat}
    (member : (.generic .zero, copies) ∈ cost.entries) :
    cost.entries = [(.generic .zero, 1)] := by
  have single := eq_of_mem_of_isGeneric member rfl
  obtain ⟨tally, shape⟩ := cost.polished
  have nothing : tally.present.genericTotal = .zero := by
    rw [← Tally.genericTotal_polish, shape]
    simpa [generic] using (congrArg Prod.fst single).symm
  have kept : (.generic .zero, copies) ∈ tally.mergedGeneric := by
    rw [← Tally.filter_isGeneric_polish, shape]
    exact List.mem_filter.2 ⟨member, rfl⟩
  have noPips := Tally.settledPips_eq_nil_of_zero (List.ne_nil_of_mem kept) nothing
  rcases Tally.mergedGeneric_cases tally with merged | ⟨none, -⟩
  · rw [← shape, Tally.polish_eq_mergedGeneric noPips, merged, nothing]
  · rw [none] at kept
    exact absurd kept List.not_mem_nil

/-- A tally without copies of other symbols becomes its generic mana, if it has any. -/
theorem entries_ofTally_of_copies_eq_zero
    {tally : Tally}
    (nothing : ∀ symbol : Symbol, symbol.isGeneric = false → tally.copies symbol = 0) :
    (ofTally tally).entries = tally.mergedGeneric :=
  Tally.polish_eq_mergedGeneric (Tally.settledPips_eq_nil nothing)

/-- A pure cost holds no symbol that is not pure. -/
theorem isPure_iff
    {cost : Cost} :
    cost.isPure = true ↔ ∀ symbol : Symbol, symbol.isPure = false → cost.count symbol = 0 := by
  constructor
  · intro pure symbol notPure
    by_contra held
    have member : (symbol, cost.count symbol) ∈ cost.entries :=
      mem_entries_iff.2 ⟨Nat.pos_of_ne_zero held, rfl⟩
    have symbolPure := List.all_eq_true.1 pure _ member
    simp [notPure] at symbolPure
  · intro nothing
    refine List.all_eq_true.2 fun entry member => ?_
    obtain ⟨positive, counted⟩ := mem_entries_iff.1 member
    by_contra notPure
    have none := nothing entry.1 (by simpa using notPure)
    exact positive.ne' (counted.symm.trans none)

theorem isPure_of_count_le
    {whole part : Cost}
    (pure : whole.isPure = true)
    (fewer : ∀ symbol : Symbol, symbol.isGeneric = false → part.count symbol ≤ whole.count symbol) :
    part.isPure = true := by
  rw [isPure_iff] at pure ⊢
  intro symbol notPure
  cases symbol with
  | single option => simp [Symbol.isPure] at notPure
  | hybrid options => exact Nat.eq_zero_of_le_zero (pure _ notPure ▸ fewer (.hybrid options) rfl)

end Cost

end ManaCost
