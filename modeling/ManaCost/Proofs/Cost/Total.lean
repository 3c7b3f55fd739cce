import ManaCost.Proofs.Cost.Canonical
import ManaCost.Proofs.Cost.Sum

namespace ManaCost

/-!
# Adding costs up

A cost holds a tally when it has its settled copies, when its generic mana comes to the weight of
the tally, and when it is empty where the tally is.  `Holds.add` takes this to sums, and
`Holds.unique` says that a tally whose weight is exact is held by one cost only.  So it does not
show in which order costs are added, how they are grouped, and whether they are polished on the way.
Without any bound on amounts only the order of two costs does not show (`Cost.add_comm`).
-/

namespace Tally

theorem le_copies_of_mem
    {tally : Tally}
    {entry : Symbol × Nat}
    (member : entry ∈ tally) :
    entry.2 ≤ tally.copies entry.1 := by
  induction tally with
  | nil => exact absurd member List.not_mem_nil
  | cons first rest inductionHypothesis =>
      rw [copies_cons]
      rcases List.mem_cons.1 member with rfl | inRest
      · rw [if_pos rfl]
        exact Nat.le_add_right _ _
      · exact (inductionHypothesis inRest).trans (Nat.le_add_left _ _)

/-- Where no pips are settled, generic mana is dropped only when none is there. -/
theorem not_isGeneric_of_settled_eq_nil
    {tally : Tally}
    (nothing : tally.settled = [])
    {entry : Symbol × Nat}
    (member : entry ∈ tally.present) :
    entry.1.isGeneric = false := by
  obtain ⟨noPips, noGeneric⟩ := List.append_eq_nil_iff.1 nothing
  by_contra generic
  have any : (tally.present.any fun entry => entry.1.isGeneric) = true :=
    List.any_eq_true.2 ⟨entry, member, eq_true_of_ne_false generic⟩
  rw [mergedGeneric, noPips, any, List.isEmpty_nil, Bool.and_self, Bool.or_true, if_pos rfl]
    at noGeneric
  exact List.cons_ne_nil _ _ noGeneric

end Tally

namespace Cost

variable {cost left right : Cost} {tally leftTally rightTally : Tally}

/-- Polishing drops everything exactly when there are no copies of anything. -/
theorem isEmpty_ofTally_iff
    (tally : Tally) :
    (ofTally tally).isEmpty = true ↔ ∀ symbol, tally.copies symbol = 0 := by
  rw [isEmpty, entries_ofTally, List.isEmpty_iff]
  constructor
  · intro nothing symbol
    have settled : tally.settled = [] :=
      (tally.perm_polish.symm.trans (.of_eq nothing)).eq_nil
    cases kind : symbol.isGeneric with
    | true =>
        rw [← Tally.copies_present]
        apply Tally.copies_eq_zero
        intro member
        obtain ⟨entry, inPresent, rfl⟩ := List.mem_map.1 member
        rw [Tally.not_isGeneric_of_settled_eq_nil settled inPresent] at kind
        exact Bool.false_ne_true kind
    | false =>
        refine Tally.eq_zero_of_settledCounts_eq_zero ?_ kind
        intro other notGeneric
        rw [← Tally.count_polish tally notGeneric, nothing, Tally.count_nil]
  · intro none
    have absent : tally.present = [] := by
      refine List.eq_nil_iff_forall_not_mem.2 fun entry member => ?_
      have some := Tally.positive_present tally entry member
      have few := Tally.le_copies_of_mem member
      rw [Tally.copies_present, none] at few
      omega
    rw [Tally.polish_eq_mergedGeneric (Tally.settledPips_eq_nil fun symbol _ => none symbol)]
    apply Tally.mergedGeneric_eq_nil
    rw [absent, List.filter_nil]

/-- Costs are told apart by being empty, by their counts and by their generic mana. -/
theorem eq_of_isEmpty_eq
    (sameEmpty : left.isEmpty = true ↔ right.isEmpty = true)
    (sameCount : ∀ symbol : Symbol, symbol.isGeneric = false →
      left.count symbol = right.count symbol)
    (sameGeneric : left.generic = right.generic) :
    left = right := by
  cases leftEmpty : left.isEmpty with
  | true =>
      rw [Cost.isEmpty_iff.1 leftEmpty, Cost.isEmpty_iff.1 (sameEmpty.1 leftEmpty)]
  | false =>
      have rightSome : right.isEmpty = false := by
        rw [← Bool.not_eq_true, ← sameEmpty, leftEmpty]
        exact Bool.false_ne_true
      exact eq_of_count_eq_of_generic_eq leftEmpty rightSome sameCount sameGeneric

/-- A cost is given back by its own entries. -/
theorem ofTally_entries
    (cost : Cost) :
    ofTally cost.entries = cost :=
  ofTally_eq_of_count_eq cost.distinct_entries fun _ => rfl

theorem isEmpty_iff_count :
    cost.isEmpty = true ↔ ∀ symbol, cost.count symbol = 0 := by
  have entries := isEmpty_ofTally_iff cost.entries
  simpa only [ofTally_entries, copies_entries] using entries

/-- A sum is empty when both costs are. -/
theorem isEmpty_add_iff :
    (left.add right).isEmpty = true ↔ left.isEmpty = true ∧ right.isEmpty = true := by
  rw [add, isEmpty_ofTally_iff, isEmpty_iff_count, isEmpty_iff_count, ← forall_and]
  refine forall_congr' fun symbol => ?_
  rw [copies_merge_entries, Nat.add_eq_zero_iff]

/-- It does not show which of two costs comes first, whatever their amounts. -/
protected theorem add_comm
    (left right : Cost) :
    left.add right = right.add left := by
  refine eq_of_isEmpty_eq ?_ ?_ ?_
  · rw [isEmpty_add_iff, isEmpty_add_iff, and_comm]
  · intro symbol notGeneric
    rw [count_add left right notGeneric, count_add right left notGeneric]
    refine Tally.settledCounts_congr (fun other _ => ?_) notGeneric
    exact Nat.add_comm _ _
  · rw [generic_add, generic_add, Amount.add_comm]

/-- Adding no cost changes nothing. -/
theorem add_of_isEmpty
    (cost : Cost)
    {nothing : Cost}
    (isEmpty : nothing.isEmpty = true) :
    cost.add nothing = cost := by
  rw [Cost.isEmpty_iff.1 isEmpty, add, entries_empty]
  exact cost.ofTally_entries

theorem add_left_of_isEmpty
    (cost : Cost)
    {nothing : Cost}
    (isEmpty : nothing.isEmpty = true) :
    nothing.add cost = cost := by
  rw [Cost.add_comm, add_of_isEmpty cost isEmpty]

/-- A cost holds what a tally counts. -/
structure Holds
    (cost : Cost)
    (tally : Tally) :
    Prop where
  isEmpty_iff : cost.isEmpty = true ↔ ∀ symbol, tally.copies symbol = 0
  count_eq : ∀ symbol : Symbol, symbol.isGeneric = false →
    cost.count symbol = Tally.settledCounts tally.copies symbol
  generic_comesTo : cost.generic.ComesTo (tally.weight Symbol.genericSteps)

theorem holds_ofTally
    (exact : tally.AmountsExact) :
    (ofTally tally).Holds tally where
  isEmpty_iff := isEmpty_ofTally_iff tally
  count_eq _ notGeneric := count_ofTally tally notGeneric
  generic_comesTo := by
    rw [generic_ofTally]
    exact Tally.comesTo_genericTotal exact

/-- A cost of exact amounts has them in its entries. -/
theorem amountsExact_entries
    (exact : cost.generic.IsExact) :
    cost.entries.AmountsExact := by
  intro entry member generic
  rw [eq_of_mem_of_isGeneric member generic]
  exact exact

theorem holds_entries
    (exact : cost.generic.IsExact) :
    cost.Holds cost.entries := by
  have held := holds_ofTally (amountsExact_entries exact)
  rwa [ofTally_entries] at held

/-- What a cost holds may be divided into entries in another way. -/
theorem Holds.congr
    (held : cost.Holds leftTally)
    (sameCopies : ∀ symbol, leftTally.copies symbol = rightTally.copies symbol)
    (sameWeight : leftTally.weight Symbol.genericSteps = rightTally.weight Symbol.genericSteps) :
    cost.Holds rightTally where
  isEmpty_iff := by
    simp only [held.isEmpty_iff, sameCopies]
  count_eq symbol notGeneric := by
    rw [held.count_eq symbol notGeneric]
    exact Tally.settledCounts_congr (fun other _ => sameCopies other) notGeneric
  generic_comesTo := sameWeight ▸ held.generic_comesTo

theorem Holds.perm
    (held : cost.Holds leftTally)
    (same : leftTally.Perm rightTally) :
    cost.Holds rightTally :=
  held.congr (Tally.copies_eq_of_perm same) (Tally.weight_eq_of_perm same)

/-- A sum holds what its parts hold together. -/
theorem Holds.add
    (leftHeld : left.Holds leftTally)
    (rightHeld : right.Holds rightTally) :
    (left.add right).Holds (leftTally ++ rightTally) where
  isEmpty_iff := by
    rw [isEmpty_add_iff, leftHeld.isEmpty_iff, rightHeld.isEmpty_iff, ← forall_and]
    refine forall_congr' fun symbol => ?_
    rw [Tally.copies_append, Nat.add_eq_zero_iff]
  count_eq symbol notGeneric := by
    have parts (other : Symbol) (otherNotGeneric : other.isGeneric = false) :
        left.count other + right.count other =
          Tally.settledCounts leftTally.copies other +
            Tally.settledCounts rightTally.copies other := by
      rw [leftHeld.count_eq other otherNotGeneric, rightHeld.count_eq other otherNotGeneric]
    rw [count_add left right notGeneric, Tally.settledCounts_congr parts notGeneric,
      Tally.settledCounts_settledCounts_add]
    exact Tally.settledCounts_congr (fun other _ => (Tally.copies_append _ _ other).symm) notGeneric
  generic_comesTo := by
    rw [generic_add, Tally.weight_append]
    exact leftHeld.generic_comesTo.add rightHeld.generic_comesTo

/-- A tally of exact weight is held by one cost only. -/
theorem Holds.unique
    (leftHeld : left.Holds tally)
    (rightHeld : right.Holds tally)
    (exact : Amount.IsExactTotal (tally.weight Symbol.genericSteps)) :
    left = right := by
  refine eq_of_isEmpty_eq (leftHeld.isEmpty_iff.trans rightHeld.isEmpty_iff.symm) ?_ ?_
  · intro symbol notGeneric
    rw [leftHeld.count_eq symbol notGeneric, rightHeld.count_eq symbol notGeneric]
  · exact leftHeld.generic_comesTo.unique rightHeld.generic_comesTo exact

/-- Collecting the entries of each symbol first does not show. -/
theorem holds_ofTally_collected
    (exact : tally.AmountsExact) :
    (ofTally tally.collected).Holds tally := by
  have collectedExact : tally.collected.AmountsExact := by
    intro entry member generic
    rcases Tally.fst_mem_of_mem_merge member with nowhere | inTally
    · exact absurd nowhere List.not_mem_nil
    · obtain ⟨source, sourceMember, same⟩ := List.mem_map.1 inTally
      rw [← same] at generic ⊢
      exact exact source sourceMember generic
  refine (holds_ofTally collectedExact).congr ?_ ?_
  · intro symbol
    rw [Tally.collected, Tally.copies_merge, Tally.copies_nil, Nat.zero_add]
  · rw [Tally.collected, Tally.weight_merge, Tally.weight_nil, zero_add]

/-- The entries of all costs. -/
abbrev allEntries
    (costs : List Cost) :
    Tally :=
  costs.flatMap entries

theorem totalTally_eq
    (costs : List Cost) :
    totalTally costs = (allEntries costs).collected := by
  rw [totalTally, Tally.collected, Tally.merge, allEntries, List.foldl_flatMap]
  rfl

theorem weight_allEntries
    (costs : List Cost) :
    (allEntries costs).weight Symbol.genericSteps =
      ((costs.map generic).map Amount.steps).sum := by
  induction costs with
  | nil =>
      rfl
  | cons cost rest inductionHypothesis =>
      rw [allEntries, List.flatMap_cons, Tally.weight_append, weight_genericSteps_entries,
        List.map_cons, List.map_cons, List.sum_cons, inductionHypothesis]

/-- A total holds the entries of all costs. -/
theorem holds_total
    {costs : List Cost}
    (exact : ∀ cost ∈ costs, cost.generic.IsExact) :
    (total costs).Holds (allEntries costs) := by
  rw [total, totalTally_eq]
  apply holds_ofTally_collected
  intro entry member
  obtain ⟨cost, isPart, inCost⟩ := List.mem_flatMap.1 member
  exact amountsExact_entries (exact cost isPart) entry inCost

/-- Costs added one after another hold the entries of all of them. -/
theorem holds_foldl_add
    {costs : List Cost}
    (held : cost.Holds tally)
    (exact : ∀ cost ∈ costs, cost.generic.IsExact) :
    (costs.foldl add cost).Holds (tally ++ allEntries costs) := by
  induction costs generalizing cost tally with
  | nil =>
      rwa [allEntries, List.flatMap_nil, List.append_nil]
  | cons first rest inductionHypothesis =>
      obtain ⟨firstExact, restExact⟩ := List.forall_mem_cons.1 exact
      rw [allEntries, List.flatMap_cons, ← List.append_assoc]
      exact inductionHypothesis (held.add (holds_entries firstExact)) restExact

/-- It does not show how costs that add up are grouped. -/
protected theorem add_assoc
    {first second third : Cost}
    (addUp : Amount.AddUp ([first, second, third].map generic)) :
    (first.add second).add third = first.add (second.add third) := by
  have held (cost : Cost) (member : cost ∈ [first, second, third]) : cost.Holds cost.entries :=
    holds_entries (addUp.exact _ (List.mem_map_of_mem member))
  have firstHeld := held first (by simp)
  have secondHeld := held second (by simp)
  have thirdHeld := held third (by simp)
  have exact := addUp.total
  rw [← weight_allEntries] at exact
  have grouped : allEntries [first, second, third] =
      first.entries ++ second.entries ++ third.entries := by
    simp [allEntries]
  rw [grouped] at exact
  refine ((firstHeld.add secondHeld).add thirdHeld).unique ?_ exact
  rw [List.append_assoc]
  exact firstHeld.add (secondHeld.add thirdHeld)

/-- Costs that add up may be totalled in any order or added one after another. -/
theorem total_eq_foldl_add
    {costs order : List Cost}
    (same : order.Perm costs)
    (addUp : Amount.AddUp (costs.map generic))
    {nothing : Cost}
    (isEmpty : nothing.isEmpty = true) :
    total order = costs.foldl add nothing := by
  have costsExact : ∀ cost ∈ costs, cost.generic.IsExact := List.forall_mem_map.1 addUp.exact
  have orderExact : ∀ cost ∈ order, cost.generic.IsExact :=
    fun cost member => costsExact cost (same.mem_iff.1 member)
  have start : nothing.Holds [] := by
    rw [Cost.isEmpty_iff.1 isEmpty, empty]
    exact holds_ofTally fun _ member => absurd member List.not_mem_nil
  have exact := addUp.total
  rw [← weight_allEntries] at exact
  have ordered := (holds_total orderExact).perm (same.flatMap_right entries)
  exact ordered.unique (holds_foldl_add start costsExact) exact

/-- Symbols with a count of one each. -/
abbrev single
    (symbols : List Symbol) :
    Tally :=
  symbols.map fun symbol => (symbol, 1)

theorem tallyOfSymbols_eq
    (symbols : List Symbol) :
    Tally.ofSymbols symbols = (single symbols).collected := by
  rw [Tally.ofSymbols, Tally.collected, Tally.merge, single, List.foldl_map]

theorem holds_ofSymbols
    {symbols : List Symbol}
    (exact : ∀ symbol ∈ symbols, symbol.isGeneric = true → symbol.manaValue.IsExact) :
    (ofSymbols symbols).Holds (single symbols) := by
  rw [ofSymbols, tallyOfSymbols_eq]
  apply holds_ofTally_collected
  intro entry member
  obtain ⟨symbol, isPart, rfl⟩ := List.mem_map.1 member
  exact exact symbol isPart

theorem weight_single
    (symbols : List Symbol) :
    (single symbols).weight Symbol.genericSteps =
      ((symbols.filterMap Symbol.genericAmount?).map Amount.steps).sum := by
  induction symbols with
  | nil =>
      rfl
  | cons symbol rest inductionHypothesis =>
      rw [single, List.map_cons, Tally.weight_cons, inductionHypothesis, List.filterMap_cons,
        Symbol.genericAmount?_eq, Symbol.genericSteps, Nat.cast_one, mul_one]
      cases symbol.isGeneric with
      | true => simp
      | false => simp

/-- Symbols whose generic amounts add up may be polished in two parts. -/
theorem ofSymbols_append
    {first second : List Symbol}
    (addUp : Amount.AddUp ((first ++ second).filterMap Symbol.genericAmount?)) :
    ofSymbols (first ++ second) = (ofSymbols first).add (ofSymbols second) := by
  have exact : ∀ symbol ∈ first ++ second, symbol.isGeneric = true → symbol.manaValue.IsExact := by
    intro symbol member generic
    have isAmount : symbol.genericAmount? = some symbol.manaValue := by
      rw [Symbol.genericAmount?_eq, if_pos generic]
    exact addUp.exact _ (List.mem_filterMap.2 ⟨symbol, member, isAmount⟩)
  obtain ⟨firstExact, secondExact⟩ := List.forall_mem_append.1 exact
  have together := (holds_ofSymbols firstExact).add (holds_ofSymbols secondExact)
  rw [single, single, ← List.map_append] at together
  refine (holds_ofSymbols exact).unique together ?_
  rw [weight_single]
  exact addUp.total

end Cost

end ManaCost
