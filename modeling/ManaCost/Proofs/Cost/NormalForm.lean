import ManaCost.Proofs.Cost.Canonical
import ManaCost.Proofs.Tally.Merge

namespace ManaCost

/-!
# The normal form of a bag

A bag holds symbols with repeats and in no order; a list of symbols and a map of counts are two ways
to present one.  The normal form of a bag is described by what it counts and by the order of its
symbols.  The main statement is `Ingredients.polish_eq_iff_isNormalForm`: polishing gives the normal
form, and nothing of the presentation shows in it.
-/

theorem Tally.eq_nil_iff_of_perm
    {left right : Tally}
    (same : left.Perm right) :
    left = [] ↔ right = [] :=
  ⟨fun nothing => (nothing ▸ same.symm).eq_nil, fun nothing => (nothing ▸ same).eq_nil⟩

/-- Symbols with repeats, in no order. -/
abbrev Bag :=
  Multiset Symbol

namespace Bag

/-- All generic mana of a bag, in steps. -/
def genericSteps
    (bag : Bag) :
    ℕ∞ :=
  (bag.map Symbol.genericSteps).sum

/-- The generic mana of a bag is infinite, or its amounts and their total are exact. -/
structure HasExactTotal
    (bag : Bag) :
    Prop where
  total : Amount.IsExactTotal bag.genericSteps
  amounts : bag.genericSteps ≠ ⊤ →
    ∀ symbol ∈ bag, symbol.isGeneric = true → symbol.manaValue.IsExact

/-- A bag has generic symbols, and nothing else remains in its entries. -/
def LeavesGenericOnly
    (bag : Bag)
    (entries : Tally) :
    Prop :=
  (∃ symbol ∈ bag, symbol.isGeneric = true) ∧ entries.nonGeneric = []

/--
Pairs of half pips have become pips, all generic mana is one symbol, and every other symbol is kept.
Generic mana that comes to nothing is left as `{0}` where nothing else is.
-/
structure IsNormalForm
    (bag : Bag)
    (entries : Tally) :
    Prop where
  canonical : entries.Canonical
  count_pip : ∀ color,
    entries.count (.pip color) = bag.count (.pip color) + bag.count (.half color) / 2
  count_half : ∀ color, entries.count (.half color) = bag.count (.half color) % 2
  count_eq : ∀ symbol : Symbol, symbol.isGeneric = false →
    (∀ color, symbol ≠ .pip color) → (∀ color, symbol ≠ .half color) →
      entries.count symbol = bag.count symbol
  generic_of_pos : 0 < bag.genericSteps → ∃ amount : Amount, amount.steps = bag.genericSteps ∧
    (entries.filter fun entry => entry.1.isGeneric) = [(.generic amount, 1)]
  generic_of_zero : bag.genericSteps = 0 → bag.LeavesGenericOnly entries →
    (entries.filter fun entry => entry.1.isGeneric) = [(.generic .zero, 1)]
  no_generic : bag.genericSteps = 0 → ¬bag.LeavesGenericOnly entries →
    (entries.filter fun entry => entry.1.isGeneric) = []

variable {bag : Bag} {entries left right : Tally}

/-- A normal form counts what settling the counts of its bag leaves. -/
theorem IsNormalForm.count_eq_settledCounts
    (normal : bag.IsNormalForm entries)
    {symbol : Symbol}
    (notGeneric : symbol.isGeneric = false) :
    entries.count symbol = Tally.settledCounts (bag.count ·) symbol := by
  unfold Tally.settledCounts
  split
  · exact normal.count_pip _
  · exact normal.count_half _
  · rename_i notPip notHalf
    exact normal.count_eq symbol notGeneric notPip notHalf

/-- Normal forms with the same symbols beside generic mana have the same generic symbol. -/
theorem IsNormalForm.filter_isGeneric_eq
    (leftNormal : bag.IsNormalForm left)
    (rightNormal : bag.IsNormalForm right)
    (same : left.nonGeneric.Perm right.nonGeneric) :
    (left.filter fun entry => entry.1.isGeneric) =
      right.filter fun entry => entry.1.isGeneric := by
  have sameNil := Tally.eq_nil_iff_of_perm same
  rcases eq_zero_or_pos bag.genericSteps with nothing | some
  · by_cases alone : bag.LeavesGenericOnly left
    · exact (leftNormal.generic_of_zero nothing alone).trans
        (rightNormal.generic_of_zero nothing (alone.imp_right sameNil.1)).symm
    · have notAlone : ¬bag.LeavesGenericOnly right := alone ∘ And.imp_right sameNil.2
      exact (leftNormal.no_generic nothing alone).trans
        (rightNormal.no_generic nothing notAlone).symm
  · obtain ⟨leftAmount, leftSteps, leftSingle⟩ := leftNormal.generic_of_pos some
    obtain ⟨rightAmount, rightSteps, rightSingle⟩ := rightNormal.generic_of_pos some
    have sameAmount := Amount.steps_injective (leftSteps.trans rightSteps.symm)
    simp only [leftSingle, rightSingle, sameAmount]

/-- Canonical entries are those of a cost. -/
theorem IsNormalForm.exists_cost
    (normal : bag.IsNormalForm entries) :
    ∃ cost : Cost, cost.entries = entries := by
  have present := Tally.present_of_positive normal.canonical.counted
  exact ⟨⟨entries, entries, normal.canonical.polish_eq (.of_eq present)⟩, rfl⟩

/-- A bag has one normal form. -/
theorem IsNormalForm.unique
    (leftNormal : bag.IsNormalForm left)
    (rightNormal : bag.IsNormalForm right) :
    left = right := by
  -- Counts and the generic symbol fix the entries only up to order; costs have one order.
  obtain ⟨leftCost, rfl⟩ := leftNormal.exists_cost
  obtain ⟨rightCost, rfl⟩ := rightNormal.exists_cost
  have sameCount (symbol : Symbol) (notGeneric : symbol.isGeneric = false) :
      leftCost.count symbol = rightCost.count symbol :=
    (leftNormal.count_eq_settledCounts notGeneric).trans
      (rightNormal.count_eq_settledCounts notGeneric).symm
  have sameGeneric := leftNormal.filter_isGeneric_eq rightNormal
    (Cost.perm_nonGeneric_of_count_eq sameCount)
  exact congrArg Cost.entries (Cost.eq_of_count_eq_of_filter_eq sameCount sameGeneric)

end Bag

namespace Tally

variable {tally : Tally}

/-- The copies of all entries. -/
def bag
    (tally : Tally) :
    Bag :=
  (tally.flatMap fun entry => List.replicate entry.2 entry.1 : List Symbol)

theorem count_bag
    (tally : Tally)
    (symbol : Symbol) :
    tally.bag.count symbol = tally.copies symbol :=
  (Multiset.coe_count symbol _).trans (count_flatMap_replicate tally symbol)

theorem mem_bag
    {symbol : Symbol} :
    symbol ∈ tally.bag ↔ ∃ entry ∈ tally.present, entry.1 = symbol := by
  simp only [bag, present, Multiset.mem_coe, List.mem_flatMap, List.mem_replicate,
    List.mem_filter, decide_eq_true_eq, Nat.pos_iff_ne_zero, and_assoc, @eq_comm _ symbol]

theorem genericSteps_bag
    (tally : Tally) :
    tally.bag.genericSteps = tally.weight Symbol.genericSteps := by
  rw [Bag.genericSteps, bag, Multiset.map_coe, Multiset.sum_coe, sum_map_flatMap_replicate]

/-- Where generic mana is exact in total, it is added up without rounding. -/
theorem steps_genericTotal
    (exact : tally.bag.HasExactTotal) :
    tally.present.genericTotal.steps = tally.bag.genericSteps := by
  have weight : tally.present.weight Symbol.genericSteps = tally.bag.genericSteps := by
    rw [weight_present, genericSteps_bag]
  -- An infinite amount hides the others, so that these need not be exact.
  by_cases unbounded : tally.bag.genericSteps = ⊤
  · rw [genericTotal_eq_infinite (weight.trans unbounded), unbounded, Amount.steps_infinite]
  · have amountsExact : tally.present.AmountsExact := fun entry member =>
      exact.amounts unbounded entry.1 (mem_bag.2 ⟨entry, member, rfl⟩)
    have comes := comesTo_genericTotal amountsExact
    rw [present_of_positive (positive_present tally), weight] at comes
    exact comes.steps_eq exact.total

/-- Beside generic mana a polished tally has its settled pips. -/
theorem nonGeneric_polish_perm
    (tally : Tally) :
    tally.polish.nonGeneric.Perm tally.settledPips := by
  have pips : tally.settledPips.nonGeneric = tally.settledPips := by
    refine List.filter_eq_self.2 fun entry member => ?_
    simp [not_isGeneric_of_mem_settledPips member]
  have merged : tally.mergedGeneric.nonGeneric = [] := by
    refine List.filter_eq_nil_iff.2 fun entry member => ?_
    rw [eq_of_mem_mergedGeneric member]
    exact Bool.false_ne_true
  have settled : tally.settled.nonGeneric = tally.settledPips :=
    calc
      tally.settled.nonGeneric = tally.settledPips.nonGeneric ++ tally.mergedGeneric.nonGeneric :=
        List.filter_append ..
      _ = tally.settledPips := by
        rw [pips, merged, List.append_nil]
  exact settled ▸ tally.perm_polish.filter _

/-- Merging checks whether a bag leaves generic mana only. -/
theorem leavesGenericOnly_polish_iff :
    tally.bag.LeavesGenericOnly tally.polish ↔
      (tally.settledPips.isEmpty && tally.present.any fun entry => entry.1.isGeneric) = true := by
  have noPips : tally.polish.nonGeneric = [] ↔ tally.settledPips = [] :=
    eq_nil_iff_of_perm tally.nonGeneric_polish_perm
  have held : (∃ symbol ∈ tally.bag, symbol.isGeneric = true) ↔
      ∃ entry ∈ tally.present, entry.1.isGeneric = true := by
    simp [mem_bag]
  rw [Bool.and_eq_true, List.isEmpty_iff, List.any_eq_true, Bag.LeavesGenericOnly, noPips, held,
    and_comm]

/-- Polishing gives the normal form of the copies of a tally. -/
theorem isNormalForm_polish
    (exact : tally.bag.HasExactTotal) :
    tally.bag.IsNormalForm tally.polish := by
  have settled (symbol : Symbol) (notGeneric : symbol.isGeneric = false) :
      tally.polish.count symbol = settledCounts (tally.bag.count ·) symbol := by
    simpa only [count_bag] using count_polish tally notGeneric
  have steps := steps_genericTotal exact
  have isZero (nothing : tally.bag.genericSteps = 0) : tally.present.genericTotal = .zero :=
    Amount.steps_injective (steps.trans nothing)
  refine
    { canonical := canonical_polish tally
      count_pip := fun color => settled (.pip color) rfl
      count_half := fun color => settled (.half color) rfl
      count_eq := ?count_eq
      generic_of_pos := ?generic_of_pos
      generic_of_zero := ?generic_of_zero
      no_generic := ?no_generic }
  case count_eq =>
    intro symbol notGeneric notPip notHalf
    rw [settled symbol notGeneric, settledCounts]
    · exact notPip
    · exact notHalf
  case generic_of_pos =>
    intro some
    have positive : tally.present.genericTotal.isPositive = true := by
      rw [Amount.isPositive_iff, steps]
      exact some.ne'
    refine ⟨tally.present.genericTotal, steps, ?_⟩
    rw [filter_isGeneric_polish, mergedGeneric, positive]
    rfl
  case generic_of_zero =>
    intro nothing alone
    rw [filter_isGeneric_polish, mergedGeneric, leavesGenericOnly_polish_iff.1 alone,
      isZero nothing]
    rfl
  case no_generic =>
    intro nothing notAlone
    have dropped := Bool.eq_false_of_not_eq_true (mt leavesGenericOnly_polish_iff.2 notAlone)
    rw [filter_isGeneric_polish, mergedGeneric, dropped, isZero nothing]
    rfl

end Tally

/-- Counts of any sign for distinct symbols, in the order in which a map gives them. -/
structure CountMap where
  counts : List (Symbol × Int)
  distinct : (counts.map Prod.fst).Nodup

/-- What polishing is given. -/
inductive Ingredients where
  | listed (symbols : List Symbol)
  | counted (map : CountMap)

namespace Ingredients

/-- The tally of ingredients, not yet polished. -/
def tally : Ingredients → Tally
  | .listed symbols => .ofSymbols symbols
  | .counted map => .ofCounts map.counts

/-- The symbols that are present, a negative count standing for none. -/
def bag : Ingredients → Bag
  | .listed symbols => symbols
  | .counted map =>
      (map.counts.flatMap fun entry => List.replicate entry.2.toNat entry.1 : List Symbol)

theorem bag_tally
    (ingredients : Ingredients) :
    ingredients.tally.bag = ingredients.bag := by
  cases ingredients with
  | listed symbols =>
      refine Multiset.ext.2 fun symbol => ?_
      calc
        (Tally.ofSymbols symbols).bag.count symbol = (Tally.ofSymbols symbols).count symbol := by
          rw [Tally.count_bag, Tally.count_eq_copies (Tally.distinct_ofSymbols symbols)]
        _ = symbols.count symbol := Tally.count_ofSymbols symbols symbol
        _ = (symbols : Bag).count symbol := (Multiset.coe_count symbol symbols).symm
  | counted map =>
      rw [tally, Tally.ofCounts_of_nodup map.distinct, Tally.bag, List.flatMap_map, bag]

/--
Polishing gives the one normal form of the bag that it is given.  So lists of symbols and maps of
counts that present the same bag, in any order, are polished to the same symbols in the same order.
-/
theorem polish_eq_iff_isNormalForm
    (ingredients : Ingredients)
    (exact : ingredients.bag.HasExactTotal) :
    (∀ entries, ingredients.tally.polish = entries ↔ ingredients.bag.IsNormalForm entries) ∧
      ∀ others : Ingredients, others.bag = ingredients.bag →
        others.tally.polish = ingredients.tally.polish := by
  have normal (presented : Ingredients) (same : presented.bag = ingredients.bag) :
      ingredients.bag.IsNormalForm presented.tally.polish := by
    have sameBag : presented.tally.bag = ingredients.bag := presented.bag_tally.trans same
    exact sameBag ▸ Tally.isNormalForm_polish (sameBag ▸ exact)
  refine ⟨fun entries => ⟨?_, (normal ingredients rfl).unique⟩, ?_⟩
  · rintro rfl
    exact normal ingredients rfl
  · intro others same
    exact (normal others same).unique (normal ingredients rfl)

/-- Three halves of a white pip among one and a half generic mana and a red pip, as a list. -/
def threeHalfWhites : Ingredients :=
  .listed [.half .white, .generic .one, .half .white, .pip .red, .generic .half, .half .white]

/-- The same ingredients as counts, beside a blue pip that is counted below zero. -/
def threeHalfWhitesBesideDebt : Ingredients :=
  .counted
    { counts := [(.pip .red, 1), (.generic .half, 1), (.pip .blue, -3), (.half .white, 3),
        (.generic .one, 1)]
      distinct := by decide +kernel }

/-- Three half white pips and two generic symbols, listed and counted beside a debt. -/
theorem polish_three_half_whites :
    threeHalfWhites.bag.HasExactTotal ∧
      threeHalfWhitesBesideDebt.bag = threeHalfWhites.bag ∧
        threeHalfWhites.bag.IsNormalForm
            [(.generic (.add .one .half), 1), (.pip .red, 1), (.pip .white, 1), (.half .white, 1)] ∧
          threeHalfWhitesBesideDebt.tally.polish =
            [(.generic (.add .one .half), 1), (.pip .red, 1), (.pip .white, 1),
              (.half .white, 1)] := by
  have exact : threeHalfWhites.bag.HasExactTotal :=
    ⟨.inr (by decide +kernel), fun _ => by decide +kernel⟩
  have sameBag : threeHalfWhitesBesideDebt.bag = threeHalfWhites.bag := by
    decide +kernel
  have polished : threeHalfWhites.tally.polish =
      [(.generic (.add .one .half), 1), (.pip .red, 1), (.pip .white, 1), (.half .white, 1)] := by
    decide +kernel
  obtain ⟨isNormalForm, samePolish⟩ := polish_eq_iff_isNormalForm threeHalfWhites exact
  exact ⟨exact, sameBag, (isNormalForm _).1 polished,
    (samePolish threeHalfWhitesBesideDebt sameBag).trans polished⟩

end Ingredients

end ManaCost
