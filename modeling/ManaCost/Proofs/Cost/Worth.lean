import Mathlib
import ManaCost.Proofs.Cost.Charge
import ManaCost.Proofs.Cost.Sum

namespace ManaCost.Cost

/-!
# What a cost is worth

The worth of a cost is the value of all its symbols without rounding; the value that is added up
symbol by symbol follows it.  The main statements are `worth_add_worth`, by which a payment that is
covered moves worth without losing any, and `shortfall_add_matchedWorth_le`, by which no way to
match the symbols of a payment leaves less to be paid than its shortfall.
-/

variable {cost payer payment left : Cost} {symbols : Finset Symbol} {matched : Multiset Symbol}

/-- The value of all symbols in steps. -/
def worth
    (cost : Cost) :
    ℕ∞ :=
  cost.entries.weight fun symbol => symbol.manaValue.steps

/-- The value in steps of all symbols that are not generic. -/
def pipWorth
    (cost : Cost) :
    ℕ∞ :=
  ∑ symbol ∈ cost.nonGenericSymbols, symbol.manaValue.steps * cost.count symbol

/-- The value in steps of symbols in a collection. -/
def matchedWorth
    (matched : Multiset Symbol) :
    ℕ∞ :=
  (matched.map fun symbol => symbol.manaValue.steps).sum

/-- The totals of a cost are exact when its generic mana and its value are, and the value is
infinite with the generic mana only. -/
structure IsExact
    (cost : Cost) :
    Prop where
  generic : cost.generic.IsExact
  manaValue : cost.manaValue.IsExact
  finite : cost.generic ≠ .infinite → cost.manaValue ≠ .infinite

theorem worth_eq
    (cost : Cost) :
    cost.worth = cost.generic.steps + cost.pipWorth := by
  have parts := List.filter_append_perm (fun entry : Symbol × Nat => entry.1.isGeneric)
    cost.entries
  have pips : cost.pipWorth = cost.entries.nonGeneric.weight fun symbol => symbol.manaValue.steps :=
    cost.sum_nonGenericSymbols fun symbol copies => symbol.manaValue.steps * copies
  rw [worth, ← Tally.weight_eq_of_perm parts, Tally.weight_append, Tally.weight_filter_isGeneric,
    weight_genericSteps_entries, pips]
  rfl

/-- The worth of a cost is that of its symbols one by one. -/
theorem sum_steps_symbols
    (cost : Cost) :
    ((cost.symbols.map Symbol.manaValue).map Amount.steps).sum = cost.worth := by
  rw [List.map_map]
  exact Tally.sum_map_flatMap_replicate cost.entries

/-- The value that is added up symbol by symbol comes to the worth. -/
theorem comesTo_manaValue
    (whole : ∀ entry ∈ cost.entries, entry.1.manaValue.Follows entry.1.manaValue.steps) :
    cost.manaValue.ComesTo cost.worth where
  follows := Tally.follows_sum_scale whole
  infinite := Tally.sum_scale_eq_infinite

theorem follows_manaValue
    (pure : cost.isPure = true)
    (exact : cost.generic.IsExact) :
    cost.manaValue.Follows cost.worth :=
  (comesTo_manaValue fun _ =>
    follows_of_mem_entries pure (Amount.follows_of_isExact exact)).follows

/-- The value of a cost with exact totals is its worth. -/
theorem IsExact.steps_manaValue
    (exact : cost.IsExact)
    (pure : cost.isPure = true) :
    cost.manaValue.steps = cost.worth := by
  have follows := follows_manaValue pure exact.generic
  by_cases infinite : cost.generic = .infinite
  · have unbounded : cost.worth = ⊤ := by
      simp [worth_eq, infinite]
    rw [unbounded]
    exact top_le_iff.1 (unbounded ▸ follows.le_steps exact.manaValue)
  · have below := exact.manaValue.lt_exactLimit (exact.finite infinite)
    exact follows.steps_eq ((follows.le_steps exact.manaValue).trans_lt below)

theorem pipWorth_eq_sum
    (held : cost.nonGenericSymbols ⊆ symbols)
    (notGeneric : ∀ symbol ∈ symbols, symbol.isGeneric = false) :
    cost.pipWorth = ∑ symbol ∈ symbols, symbol.manaValue.steps * cost.count symbol :=
  sum_count_eq held notGeneric (fun symbol copies => symbol.manaValue.steps * copies) (by simp)

theorem matchedWorth_add
    (first second : Multiset Symbol) :
    matchedWorth (first + second) = matchedWorth first + matchedWorth second := by
  simp [matchedWorth]

theorem matchedWorth_eq_sum
    (within : ∀ symbol ∈ matched, symbol ∈ symbols) :
    matchedWorth matched = ∑ symbol ∈ symbols, symbol.manaValue.steps * matched.count symbol := by
  rw [matchedWorth, Finset.sum_multiset_map_count]
  simp only [nsmul_eq_mul, mul_comm (Nat.cast _)]
  apply Finset.sum_subset
  · intro symbol member
    exact within symbol (Multiset.mem_toFinset.1 member)
  · intro symbol _ missing
    have none : matched.count symbol = 0 :=
      Multiset.count_eq_zero.2 (mt Multiset.mem_toFinset.2 missing)
    rw [none, Nat.cast_zero, mul_zero]

/-- The symbols that are not generic and that two costs have in common. -/
def common
    (payer payment : Cost) :
    Multiset Symbol :=
  ((payer.symbols : Multiset Symbol) ∩ payment.symbols).filter fun symbol =>
    symbol.isGeneric = false

theorem count_common
    (payer payment : Cost)
    {symbol : Symbol}
    (notGeneric : symbol.isGeneric = false) :
    (payer.common payment).count symbol = min (payer.count symbol) (payment.count symbol) := by
  rw [common, Multiset.count_filter, if_pos notGeneric, Multiset.count_inter,
    Multiset.coe_count, Multiset.coe_count, count_symbols, count_symbols]

theorem mem_nonGenericSymbols_of_mem
    {symbol : Symbol}
    (within : matched ≤ payment.symbols)
    (notGeneric : ∀ symbol ∈ matched, symbol.isGeneric = false)
    (member : symbol ∈ matched) :
    symbol ∈ payment.nonGenericSymbols := by
  have held : symbol ∈ (payment.symbols : Multiset Symbol) := Multiset.mem_of_le within member
  rw [Multiset.mem_coe, ← List.count_pos_iff, count_symbols] at held
  exact mem_nonGenericSymbols.2 ⟨notGeneric symbol member, held⟩

/-- Whatever symbols of a payment are matched with a payer's own, the others are worth the shortfall
at least. -/
theorem shortfall_add_matchedWorth_le
    (ofPayer : matched ≤ payer.symbols)
    (ofPayment : matched ≤ payment.symbols)
    (notGeneric : ∀ symbol ∈ matched, symbol.isGeneric = false) :
    payer.shortfall payment + matchedWorth matched ≤ payment.pipWorth := by
  rw [matchedWorth_eq_sum fun _ => mem_nonGenericSymbols_of_mem ofPayment notGeneric, shortfall,
    sum_steps_add fun _ _ => rfl]
  apply sum_steps_mono
  intro symbol _
  have fromPayer := Multiset.count_le_of_le symbol ofPayer
  have fromPayment := Multiset.count_le_of_le symbol ofPayment
  rw [Multiset.coe_count, count_symbols] at fromPayer fromPayment
  omega

/-- Matching all that two costs have in common leaves the shortfall. -/
theorem shortfall_add_matchedWorth_common
    (payer payment : Cost) :
    payer.shortfall payment + matchedWorth (payer.common payment) = payment.pipWorth := by
  have within : ∀ symbol ∈ payer.common payment, symbol ∈ payment.nonGenericSymbols := by
    intro symbol member
    have notGeneric := (Multiset.mem_filter.1 member).2
    have counted := Multiset.count_pos.2 member
    rw [count_common payer payment notGeneric] at counted
    exact mem_nonGenericSymbols.2 ⟨notGeneric, counted.trans_le (Nat.min_le_right _ _)⟩
  rw [matchedWorth_eq_sum within]
  apply sum_steps_add
  intro symbol member
  rw [count_common payer payment (mem_nonGenericSymbols.1 member).1]
  omega

theorem manaValue_ne_infinite
    {symbol : Symbol}
    (pure : symbol.isPure = true)
    (notGeneric : symbol.isGeneric = false) :
    symbol.manaValue ≠ .infinite := by
  rcases symbol with (fixed | color | amount | name) | options
  · cases fixed <;> exact Amount.noConfusion
  · exact Amount.noConfusion
  · exact absurd notGeneric.symm Bool.false_ne_true
  · exact Amount.noConfusion
  · exact absurd pure Bool.false_ne_true

theorem matchedWorth_ne_top
    (pure : ∀ symbol ∈ matched, symbol.isPure = true)
    (notGeneric : ∀ symbol ∈ matched, symbol.isGeneric = false) :
    matchedWorth matched ≠ ⊤ := by
  refine Multiset.sum_induction (· ≠ ⊤) _ (fun _ _ left right => by simp [left, right]) (by simp) ?_
  intro steps member
  obtain ⟨symbol, held, rfl⟩ := Multiset.mem_map.1 member
  exact mt Amount.steps_eq_top_iff.1
    (manaValue_ne_infinite (pure symbol held) (notGeneric symbol held))

/-- Of a payer, what is left after a payment and the payment are worth what the payer is worth and
what it lacks. -/
theorem pipWorth_add_pipWorth
    {needed : ℕ∞}
    (isLeft : payer.IsLeft ⟨payment.count, needed⟩ left) :
    left.pipWorth + payment.pipWorth = payer.pipWorth + payer.shortfall payment := by
  let symbols := payer.nonGenericSymbols ∪ payment.nonGenericSymbols
  have notGeneric : ∀ symbol ∈ symbols, symbol.isGeneric = false :=
    fun _ => not_isGeneric_of_mem_union
  have leftHeld : left.nonGenericSymbols ⊆ symbols := by
    intro symbol member
    obtain ⟨kind, positive⟩ := mem_nonGenericSymbols.1 member
    rw [isLeft.count_eq symbol kind] at positive
    exact Finset.mem_union_left _ (mem_nonGenericSymbols.2 ⟨kind, by omega⟩)
  calc
    left.pipWorth + payment.pipWorth =
        ∑ symbol ∈ symbols, symbol.manaValue.steps *
          (left.count symbol + payment.count symbol : Nat) := by
      rw [pipWorth_eq_sum leftHeld notGeneric,
        pipWorth_eq_sum Finset.subset_union_right notGeneric, sum_steps_add fun _ _ => rfl]
    _ = payer.pipWorth + payer.shortfall payment := by
      rw [pipWorth_eq_sum Finset.subset_union_left notGeneric,
        payer.shortfall_eq_sum Finset.subset_union_right notGeneric]
      refine (sum_steps_add fun symbol member => ?_).symm
      have kept : left.count symbol = payer.count symbol - payment.count symbol :=
        isLeft.count_eq symbol (notGeneric symbol member)
      omega

/-- A payment that finite generic mana covers moves worth and loses none. -/
theorem worth_add_worth
    (isLeft : payer.IsLeft ⟨payment.count, payment.generic.steps + payer.shortfall payment⟩ left)
    (finite : payer.generic ≠ .infinite)
    (covered : payment.generic.steps + payer.shortfall payment ≤ payer.generic.steps) :
    left.worth + payment.worth = payer.worth := by
  have generic : left.generic.steps =
      payer.generic.steps - (payment.generic.steps + payer.shortfall payment) := by
    rw [isLeft.generic_eq, if_neg finite]
  calc
    left.worth + payment.worth =
        left.generic.steps + payment.generic.steps + (left.pipWorth + payment.pipWorth) := by
      rw [worth_eq, worth_eq, add_add_add_comm]
    _ = left.generic.steps + (payment.generic.steps + payer.shortfall payment) +
        payer.pipWorth := by
      rw [pipWorth_add_pipWorth isLeft]
      ac_rfl
    _ = payer.worth := by
      rw [generic, tsub_add_cancel_of_le covered, worth_eq]

end ManaCost.Cost
