import Mathlib
import ManaCost.Proofs.Cost.Demand

namespace ManaCost.Cost

/-!
# What a payment requires

What a payment requires is written down without a walk: its generic mana and, where generic mana may
pay for colors, the value of everything that the payer has too few copies of.  The main statement is
`demand_eq_error_iff`: asking for a payment fails exactly when the policy is strict and the payer
falls short of that.
-/

/-- The symbols of a cost that are not generic. -/
def nonGenericSymbols
    (cost : Cost) :
    Finset Symbol :=
  (cost.entries.nonGeneric.map Prod.fst).toFinset

/-- The value in steps of all copies that a payment has and its payer has not. -/
def shortfall
    (payer payment : Cost) :
    ℕ∞ :=
  ∑ symbol ∈ payment.nonGenericSymbols,
    symbol.manaValue.steps * (payment.count symbol - payer.count symbol : Nat)

/-- The generic mana in steps that a payment requires. -/
def required
    (payer payment : Cost)
    (policy : Policy) :
    ℕ∞ :=
  payment.generic.steps + if policy.colorPaysGeneric then payer.shortfall payment else 0

theorem mem_nonGenericSymbols
    {cost : Cost}
    {symbol : Symbol} :
    symbol ∈ cost.nonGenericSymbols ↔ symbol.isGeneric = false ∧ 0 < cost.count symbol := by
  rw [nonGenericSymbols, List.mem_toFinset, List.mem_map]
  constructor
  · rintro ⟨entry, member, rfl⟩
    obtain ⟨held, notGeneric⟩ := List.mem_filter.1 member
    obtain ⟨positive, counted⟩ := mem_entries_iff.1 held
    exact ⟨by simpa using notGeneric, by omega⟩
  · rintro ⟨notGeneric, positive⟩
    refine ⟨(symbol, cost.count symbol), List.mem_filter.2 ⟨?_, ?_⟩, rfl⟩
    · exact mem_entries_iff.2 ⟨positive, rfl⟩
    · rw [notGeneric]
      rfl

theorem not_isGeneric_of_mem_union
    {first second : Cost}
    {symbol : Symbol}
    (member : symbol ∈ first.nonGenericSymbols ∪ second.nonGenericSymbols) :
    symbol.isGeneric = false := by
  rcases Finset.mem_union.1 member with held | held
  · exact (mem_nonGenericSymbols.1 held).1
  · exact (mem_nonGenericSymbols.1 held).1

/-- A sum over the symbols of a cost is a sum over its entries. -/
theorem sum_nonGenericSymbols
    (cost : Cost)
    (value : Symbol → Nat → ℕ∞) :
    ∑ symbol ∈ cost.nonGenericSymbols, value symbol (cost.count symbol) =
      (cost.entries.nonGeneric.map fun entry => value entry.1 entry.2).sum := by
  rw [nonGenericSymbols, List.sum_toFinset _ cost.distinct_nonGeneric_entries, List.map_map]
  congr 1
  apply List.map_congr_left
  intro entry member
  have counted := (mem_entries_iff.1 (List.mem_filter.1 member).1).2
  rw [Function.comp_apply, counted]

/-- Symbols that a cost does not hold add nothing to a sum over its counts. -/
theorem sum_count_eq
    {cost : Cost}
    {symbols : Finset Symbol}
    (held : cost.nonGenericSymbols ⊆ symbols)
    (notGeneric : ∀ symbol ∈ symbols, symbol.isGeneric = false)
    (value : Symbol → Nat → ℕ∞)
    (nothing : ∀ symbol, value symbol 0 = 0) :
    ∑ symbol ∈ cost.nonGenericSymbols, value symbol (cost.count symbol) =
      ∑ symbol ∈ symbols, value symbol (cost.count symbol) := by
  apply Finset.sum_subset held
  intro symbol member missing
  have none : cost.count symbol = 0 := by
    by_contra some
    exact missing (mem_nonGenericSymbols.2 ⟨notGeneric symbol member, Nat.pos_of_ne_zero some⟩)
  rw [none, nothing]

/-- Copies that add up have values that add up. -/
theorem sum_steps_add
    {symbols : Finset Symbol}
    {first second total : Symbol → Nat}
    (same : ∀ symbol ∈ symbols, first symbol + second symbol = total symbol) :
    ∑ symbol ∈ symbols, symbol.manaValue.steps * first symbol +
        ∑ symbol ∈ symbols, symbol.manaValue.steps * second symbol =
      ∑ symbol ∈ symbols, symbol.manaValue.steps * total symbol := by
  rw [← Finset.sum_add_distrib]
  refine Finset.sum_congr rfl fun symbol member => ?_
  rw [← mul_add, ← Nat.cast_add, same symbol member]

theorem sum_steps_mono
    {symbols : Finset Symbol}
    {first second : Symbol → Nat}
    (fewer : ∀ symbol ∈ symbols, first symbol ≤ second symbol) :
    ∑ symbol ∈ symbols, symbol.manaValue.steps * first symbol ≤
      ∑ symbol ∈ symbols, symbol.manaValue.steps * second symbol :=
  Finset.sum_le_sum fun symbol member => mul_le_mul_right (Nat.cast_le.2 (fewer symbol member)) _

/-- A symbol that a payment does not hold adds nothing to the shortfall. -/
theorem shortfall_eq_sum
    (payer : Cost)
    {payment : Cost}
    {symbols : Finset Symbol}
    (held : payment.nonGenericSymbols ⊆ symbols)
    (notGeneric : ∀ symbol ∈ symbols, symbol.isGeneric = false) :
    payer.shortfall payment =
      ∑ symbol ∈ symbols,
        symbol.manaValue.steps * (payment.count symbol - payer.count symbol : Nat) :=
  sum_count_eq held notGeneric
    (fun symbol copies => symbol.manaValue.steps * (copies - payer.count symbol : Nat)) (by simp)

/-- The need of all entries is what the payment requires. -/
theorem neededForAll_entries
    (payer payment : Cost)
    (policy : Policy) :
    payer.neededForAll policy payment.entries = payer.required payment policy := by
  have parts := ((List.filter_append_perm (fun entry : Symbol × Nat => entry.1.isGeneric)
    payment.entries).map (payer.neededFor policy)).sum_eq
  have generic : ((payment.entries.filter fun entry => entry.1.isGeneric).map
      (payer.neededFor policy)).sum = payment.generic.steps := by
    rcases payment.filter_isGeneric_entries with single | ⟨none, nothing⟩
    · rw [single]
      change payment.generic.steps * ((1 : Nat) : ℕ∞) + 0 = _
      rw [Nat.cast_one, mul_one, add_zero]
    · rw [none, nothing]
      rfl
  have others : (payment.entries.nonGeneric.map (payer.neededFor policy)).sum =
      if policy.colorPaysGeneric then payer.shortfall payment else 0 := by
    have rest : payment.entries.nonGeneric.map (payer.neededFor policy) =
        payment.entries.nonGeneric.map fun entry =>
          if policy.colorPaysGeneric then
            entry.1.manaValue.steps * ((entry.2 - payer.count entry.1 : Nat) : ℕ∞)
          else 0 := by
      apply List.map_congr_left
      intro entry member
      have notGeneric : entry.1.isGeneric = false := by
        simpa using (List.mem_filter.1 member).2
      rw [neededFor, notGeneric, if_neg Bool.false_ne_true]
    rw [rest, shortfall, payment.sum_nonGenericSymbols fun symbol copies =>
      symbol.manaValue.steps * ((copies - payer.count symbol : Nat) : ℕ∞)]
    split
    · rfl
    · simp
  rw [neededForAll, ← parts, List.map_append, List.sum_append, generic]
  unfold required
  rw [← others]
  rfl

/-- The values of pure symbols that are not generic are exact. -/
theorem isExact_manaValue
    {symbol : Symbol}
    (pure : symbol.isPure = true)
    (notGeneric : symbol.isGeneric = false) :
    symbol.manaValue.IsExact := by
  cases symbol with
  | hybrid => exact absurd pure Bool.false_ne_true
  | single option =>
      cases option with
      | atom fixed =>
          cases fixed with
          | tap | untap => exact Amount.isExact_zero
          | _ => exact Amount.isExact_one
      | half color => exact Amount.isExact_half
      | generic amount => exact absurd notGeneric.symm Bool.false_ne_true
      | var name => exact Amount.isExact_zero

/-- The values in a pure cost follow themselves when its generic mana does. -/
theorem follows_of_mem_entries
    {cost : Cost}
    (pure : cost.isPure = true)
    (whole : cost.generic.Follows cost.generic.steps)
    {entry : Symbol × Nat}
    (member : entry ∈ cost.entries) :
    entry.1.manaValue.Follows entry.1.manaValue.steps := by
  cases kind : entry.1.isGeneric with
  | true =>
      rw [eq_of_mem_of_isGeneric member kind]
      exact whole
  | false =>
      exact Amount.follows_of_isExact
        (isExact_manaValue (List.all_eq_true.1 pure entry member) kind)

/-- A payer lacks an entry of a payment when it has fewer copies of some symbol. -/
theorem exists_lacks_iff
    {payer payment : Cost}
    {policy : Policy} :
    (∃ entry ∈ payment.entries, payer.Lacks policy entry) ↔
      policy.colorPaysGeneric = false ∧
        ∃ symbol : Symbol, symbol.isGeneric = false ∧
          payer.count symbol < payment.count symbol := by
  constructor
  · rintro ⟨entry, member, uncolored, notGeneric, fewer⟩
    rw [← (mem_entries_iff.1 member).2] at fewer
    exact ⟨uncolored, entry.1, notGeneric, fewer⟩
  · rintro ⟨uncolored, symbol, notGeneric, fewer⟩
    have positive : 0 < payment.count symbol := by omega
    exact ⟨(symbol, payment.count symbol), mem_entries_iff.2 ⟨positive, rfl⟩, uncolored,
      notGeneric, fewer⟩

/-- The steps of generic mana that missing copies need. -/
def missingNeed
    (payer payment : Cost)
    (policy : Policy) :
    ℕ∞ :=
  if policy.colorPaysGeneric then payer.shortfall payment else 0

/-- A finished walk over a payment gives its generic total and the need of what is missing. -/
theorem follows_of_demand_of_follows
    {payer payment : Cost}
    {policy : Policy}
    {needed : Amount}
    {total : ℕ∞}
    (pure : payment.isPure = true)
    (generic : payment.generic.Follows total)
    (reached : payer.demand payment policy = .ok needed) :
    needed.Follows (total + payer.missingNeed payment policy) := by
  have follows := follows_of_demandFrom (fun _ => follows_of_mem_entries pure generic.itself)
    Amount.follows_zero reached
  rw [zero_add, neededForAll_entries] at follows
  exact follows.replace generic

/-- A finished walk over a payment gives what the payment requires. -/
theorem follows_of_demand
    {payer payment : Cost}
    {policy : Policy}
    {needed : Amount}
    (pure : payment.isPure = true)
    (exact : payment.generic.IsExact)
    (reached : payer.demand payment policy = .ok needed) :
    needed.Follows (payer.required payment policy) :=
  follows_of_demand_of_follows pure (Amount.follows_of_isExact exact) reached

/-- Paying fails exactly when the policy is strict and the payer falls short of the total that the
payment's generic mana follows, of what is missing on top, or of a symbol. -/
theorem demand_eq_error_iff_of_follows
    {payer payment : Cost}
    {policy : Policy}
    {total : ℕ∞}
    (pure : payment.isPure = true)
    (payerExact : payer.generic.IsExact)
    (generic : payment.generic.Follows total) :
    (∃ shortage, payer.demand payment policy = .error shortage) ↔
      policy.failOnExcess = true ∧
        (payer.generic.steps < total + payer.missingNeed payment policy ∨
          policy.colorPaysGeneric = false ∧
            ∃ symbol : Symbol, symbol.isGeneric = false ∧
              payer.count symbol < payment.count symbol) := by
  cases strict : policy.failOnExcess with
  | true =>
      have stops := demandFrom_eq_error_iff strict payerExact
        (fun _ => follows_of_mem_entries pure generic.itself) Amount.follows_zero (zero_le)
      rw [zero_add, neededForAll_entries, exists_lacks_iff] at stops
      rw [demand, stops, ← payerExact.lt_add_iff generic, eq_self, true_and]
      rfl
  | false =>
      obtain ⟨needed, reached⟩ := exists_demandFrom_eq_ok strict payment.entries .zero
      rw [demand, reached]
      simp

/-- Paying fails exactly when the policy is strict and the payer falls short. -/
theorem demand_eq_error_iff
    {payer payment : Cost}
    {policy : Policy}
    (pure : payment.isPure = true)
    (payerExact : payer.generic.IsExact)
    (exact : payment.generic.IsExact) :
    (∃ shortage, payer.demand payment policy = .error shortage) ↔
      policy.failOnExcess = true ∧
        (payer.generic.steps < payer.required payment policy ∨
          policy.colorPaysGeneric = false ∧
            ∃ symbol : Symbol, symbol.isGeneric = false ∧
              payer.count symbol < payment.count symbol) :=
  demand_eq_error_iff_of_follows pure payerExact (Amount.follows_of_isExact exact)

end ManaCost.Cost
