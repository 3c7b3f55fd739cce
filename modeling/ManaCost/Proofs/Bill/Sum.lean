import ManaCost.Proofs.Bill.Partition
import ManaCost.Proofs.Bill.Total
import ManaCost.Proofs.Cost.Queries
import ManaCost.Proofs.Cost.Relation

namespace ManaCost

/-!
# What a sum of bills keeps

A sum can be read, paid and taken apart.  The main statements are `Bill.queries_add`, by which value
and colors of a sum are those of both bills and devotion nearly is, `Bill.reduce_add`, by which
paying one bill out of a sum gives the other back, and `Bill.sameSymbols_of_add`, by which a sum and
one of its bills determine the other.
-/

namespace Cost

variable {left right addend payer payment : Cost}

/-- Exact costs without a half pip in common lie within their sum. -/
theorem within_add
    (addUp : Amount.AddUp [payer.generic, payment.generic])
    (apart : ∀ color, payer.count (.half color) = 0 ∨ payment.count (.half color) = 0) :
    payment.Within (payer.add payment) where
  count_le symbol notGeneric := by
    rw [count_add_of_apart apart notGeneric]
    exact Nat.le_add_left _ _
  generic_le := by
    obtain ⟨payerExact, paymentExact, total⟩ := addUp.pair
    rw [steps_generic_add payerExact paymentExact total]
    exact le_add_self

/-- Taking a finite amount away from an exact sum leaves the other amount. -/
theorem generic_add_afterPaying
    (addUp : Amount.AddUp [payer.generic, payment.generic])
    (finite : payment.generic ≠ .infinite) :
    (payer.add payment).generic.afterPaying payment.generic = payer.generic := by
  obtain ⟨payerExact, paymentExact, total⟩ := addUp.pair
  have steps := steps_generic_add payerExact paymentExact total
  have notTop := mt Amount.steps_eq_top_iff.1 finite
  apply Amount.steps_injective
  rw [Amount.steps_afterPaying (isExact_generic_add payerExact paymentExact total)
    (Amount.follows_of_isExact paymentExact), steps]
  split
  · rename_i infinite
    rw [infinite, Amount.steps_infinite, eq_comm, ENat.add_eq_top] at steps
    exact (steps.resolve_right notTop).symm
  · exact (ENat.addLECancellable_of_ne_top notTop).add_tsub_cancel_right

/-- A sum that pays for one of its costs keeps the other, whatever the policy. -/
theorem reduce_add_eq_orFree
    (policy : Policy)
    (addUp : Amount.AddUp [payer.generic, payment.generic])
    (finite : payment.generic ≠ .infinite)
    (apart : ∀ color, payer.count (.half color) = 0 ∨ payment.count (.half color) = 0) :
    (payer.add payment).reduce payment policy = .ok payer.orFree := by
  refine reduce_eq_ok_iff.2
    ⟨payment.generic, demand_eq_generic_of_within policy (within_add addUp apart), ?_⟩
  refine eq_of_count_eq_of_generic_eq (isEmpty_orFree _) (isEmpty_orFree _) ?_ ?_
  · intro symbol notGeneric
    rw [count_orFree_remaining _ _ _ notGeneric, count_orFree _ notGeneric,
      count_add_of_apart apart notGeneric, Nat.add_sub_cancel]
  · rw [generic_orFree_remaining, generic_orFree, generic_add_afterPaying addUp finite]

/-- What is added on both sides cancels once `{0}` is read as no cost. -/
theorem orEmpty_eq_of_add_eq
    (leftAddUp : Amount.AddUp [left.generic, addend.generic])
    (rightAddUp : Amount.AddUp [right.generic, addend.generic])
    (finite : addend.generic ≠ .infinite)
    (same : left.add addend = right.add addend) :
    left.orEmpty = right.orEmpty := by
  refine eq_of_ne_free (orEmpty_ne_free left) (orEmpty_ne_free right) ?_ ?_
  · intro symbol notGeneric
    rw [count_orEmpty left notGeneric, count_orEmpty right notGeneric]
    exact count_eq_of_count_add_eq (fun _ _ => by rw [same]) notGeneric
  · rw [generic_orEmpty, generic_orEmpty, ← generic_add_afterPaying leftAddUp finite, same,
      generic_add_afterPaying rightAddUp finite]

end Cost

namespace Bill

/--
The value of a sum is that of both bills, where values are exact in total, and it has the colors of
both.  It is as devoted to a color as both are, less one when both have half a pip of that color.
-/
theorem queries_add
    (left right : Bill) :
    (Amount.AddUp ((left.cost.symbols ++ right.cost.symbols).map Symbol.manaValue) →
        (left.add right).cost.manaValue = left.cost.manaValue.add right.cost.manaValue) ∧
      (left.add right).cost.color = left.cost.color ∪ right.cost.color ∧
        ∀ color,
          (left.add right).cost.devotion color +
              (if left.cost.contains (.half color) ∧ right.cost.contains (.half color) then 1
                else 0) =
            left.cost.devotion color + right.cost.devotion color := by
  rw [cost_add]
  refine ⟨Cost.manaValue_add, Cost.color_add left.cost right.cost, fun color => ?_⟩
  rw [← Cost.devotion_add, Multiset.count_eq_of_nodup (left.cost.sharedHalves right.cost).nodup]
  simp only [Finset.mem_val, Cost.mem_sharedHalves]

/-- Half a generic mana, half a white pip, half a red one and a hybrid symbol. -/
def halvesBesideHybrid : Bill :=
  .plain (.ofSymbols [.generic .half, .half .white, .half .red, whiteBlue])

/-- Half a generic mana, half a white pip and a variable. -/
def halvesBesideX : Bill :=
  .plain (.ofSymbols [.generic .half, .half .white, .var .x])

/-- Two white half pips make a pip, which is one symbol less but of the same value and color. -/
theorem queries_add_halves_beside_hybrid :
    Amount.AddUp ((halvesBesideHybrid.cost.symbols ++ halvesBesideX.cost.symbols).map
        Symbol.manaValue) ∧
      (halvesBesideHybrid.add halvesBesideX).cost.manaValue =
        halvesBesideHybrid.cost.manaValue.add halvesBesideX.cost.manaValue ∧
        (halvesBesideHybrid.add halvesBesideX).cost.manaValue.text = "3.5" ∧
          (halvesBesideHybrid.add halvesBesideX).cost.color =
            halvesBesideHybrid.cost.color ∪ halvesBesideX.cost.color ∧
            (halvesBesideHybrid.add halvesBesideX).cost.color.letters = ['U', 'R', 'W'] ∧
              (halvesBesideHybrid.add halvesBesideX).cost.devotion .white = 2 ∧
                halvesBesideHybrid.cost.devotion .white = 2 ∧
                  halvesBesideX.cost.devotion .white = 1 := by
  have addUp : Amount.AddUp ((halvesBesideHybrid.cost.symbols ++
      halvesBesideX.cost.symbols).map Symbol.manaValue) :=
    ⟨by decide +kernel, .inr (by decide +kernel)⟩
  have both : halvesBesideHybrid.cost.contains (.half .white) = true ∧
      halvesBesideX.cost.contains (.half .white) = true := by
    decide +kernel
  have parts : (halvesBesideHybrid.cost.manaValue.add halvesBesideX.cost.manaValue).text = "3.5" ∧
      (halvesBesideHybrid.cost.color ∪ halvesBesideX.cost.color).letters = ['U', 'R', 'W'] ∧
        halvesBesideHybrid.cost.devotion .white = 2 ∧
          halvesBesideX.cost.devotion .white = 1 := by
    decide +kernel
  obtain ⟨value, color, devotion⟩ := queries_add halvesBesideHybrid halvesBesideX
  obtain ⟨valueText, letters, left, right⟩ := parts
  have devotionWhite := devotion .white
  rw [if_pos both, left, right] at devotionWhite
  exact ⟨addUp, value addUp, value addUp ▸ valueText, color, color ▸ letters,
    Nat.add_right_cancel devotionWhite, left, right⟩

/--
A bill that is paid out of its sum with another leaves the other one, or `{0}` when that has no
symbols.  No policy makes a difference.  The two must not both have half a pip of one color: these
would be a pip of the sum.
-/
theorem reduce_add
    (payer payment : PureCost)
    (policy : Policy)
    (addUp : Amount.AddUp [payer.cost.generic, payment.cost.generic])
    (finite : payment.cost.generic ≠ .infinite)
    (apart : ∀ color,
      payer.cost.count (.half color) = 0 ∨ payment.cost.count (.half color) = 0) :
    ((Bill.payable payer).add (.payable payment)).reduce (.payable payment) policy =
      .ok (.ok (Bill.payable payer).orFree) := by
  have other : (Bill.payable payer).orFree = classify payer.cost.orFree := by
    rw [← orFree_classify, classify_of_isPure payer.isPure]
  rw [add_payable, reduce_payable _ (.payable payment) policy payment.isPure, other]
  exact congrArg (fun outcome => Except.ok (outcome.map classify))
    (Cost.reduce_add_eq_orFree policy addUp finite apart)

/-- Two generic mana, a white pip, a green one and half a red one. -/
def twoWhiteGreenHalfRed : PureCost where
  cost := .ofSymbols [.generic .two, .pip .white, .pip .green, .half .red]
  isPure := by decide +kernel

/-- Half a generic mana, half a white pip and a variable. -/
def halfHalfWhiteX : PureCost where
  cost := .ofSymbols [.generic .half, .half .white, .var .x]
  isPure := by decide +kernel

/-- Half a white pip is paid out of a sum that also has a white pip, which stays whole. -/
theorem reduce_add_half_half_white_x :
    Amount.AddUp [twoWhiteGreenHalfRed.cost.generic, halfHalfWhiteX.cost.generic] ∧
      halfHalfWhiteX.cost.generic ≠ .infinite ∧
        (∀ color, twoWhiteGreenHalfRed.cost.count (.half color) = 0 ∨
          halfHalfWhiteX.cost.count (.half color) = 0) ∧
          ∀ policy,
            ((Bill.payable twoWhiteGreenHalfRed).add (.payable halfHalfWhiteX)).reduce
              (.payable halfHalfWhiteX) policy = .ok (.ok (.payable twoWhiteGreenHalfRed)) := by
  have addUp : Amount.AddUp [twoWhiteGreenHalfRed.cost.generic, halfHalfWhiteX.cost.generic] :=
    ⟨by decide +kernel, .inr (by decide +kernel)⟩
  have finite : halfHalfWhiteX.cost.generic ≠ .infinite := by decide +kernel
  have apart : ∀ color, twoWhiteGreenHalfRed.cost.count (.half color) = 0 ∨
      halfHalfWhiteX.cost.count (.half color) = 0 := by
    intro color
    cases color <;> decide +kernel
  have itself : (Bill.payable twoWhiteGreenHalfRed).orFree = .payable twoWhiteGreenHalfRed := by
    decide +kernel
  refine ⟨addUp, finite, apart, fun policy => ?_⟩
  rw [reduce_add twoWhiteGreenHalfRed halfHalfWhiteX policy addUp finite apart, itself]

/--
Two bills have the same symbols when their sums with a third one have, except that `{0}` and a bill
without symbols add the same.
-/
theorem sameSymbols_of_add
    (left right addend : Bill)
    (leftAddUp : Amount.AddUp [left.cost.generic, addend.cost.generic])
    (rightAddUp : Amount.AddUp [right.cost.generic, addend.cost.generic])
    (finite : addend.cost.generic ≠ .infinite)
    (same : (left.add addend).cost.sameSymbols (right.add addend).cost = true) :
    left.cost.sameSymbols right.cost = true ∨
      left.cost = .free ∧ right.cost.isEmpty = true ∨
        left.cost.isEmpty = true ∧ right.cost = .free := by
  rw [Cost.sameSymbols_iff_eq, cost_add, cost_add] at same
  rw [Cost.sameSymbols_iff_eq, Cost.isEmpty_iff, Cost.isEmpty_iff, ← Cost.orEmpty_eq_iff]
  exact Cost.orEmpty_eq_of_add_eq leftAddUp rightAddUp finite same

/-- Beside half pips and a hybrid symbol `{0}` adds no more than a bill without symbols does. -/
theorem sameSymbols_of_add_zero :
    Amount.AddUp [zeroGeneric.cost.generic, halvesBesideHybrid.cost.generic] ∧
      Amount.AddUp [noSymbols.cost.generic, halvesBesideHybrid.cost.generic] ∧
        halvesBesideHybrid.cost.generic ≠ .infinite ∧
          (zeroGeneric.add halvesBesideHybrid).cost.sameSymbols
            (noSymbols.add halvesBesideHybrid).cost = true ∧
            zeroGeneric.cost.sameSymbols noSymbols.cost = false ∧
              (zeroGeneric.cost = .free ∧ noSymbols.cost.isEmpty = true ∨
                zeroGeneric.cost.isEmpty = true ∧ noSymbols.cost = .free) := by
  have zeroAddUp : Amount.AddUp [zeroGeneric.cost.generic, halvesBesideHybrid.cost.generic] :=
    ⟨by decide +kernel, .inr (by decide +kernel)⟩
  have nothingAddUp : Amount.AddUp [noSymbols.cost.generic, halvesBesideHybrid.cost.generic] :=
    ⟨by decide +kernel, .inr (by decide +kernel)⟩
  have finite : halvesBesideHybrid.cost.generic ≠ .infinite := by decide +kernel
  have same : (zeroGeneric.add halvesBesideHybrid).cost.sameSymbols
      (noSymbols.add halvesBesideHybrid).cost = true := by
    decide +kernel
  have differ : zeroGeneric.cost.sameSymbols noSymbols.cost = false := by decide +kernel
  have collision := sameSymbols_of_add zeroGeneric noSymbols halvesBesideHybrid
    zeroAddUp nothingAddUp finite same
  rw [differ, or_iff_right Bool.false_ne_true] at collision
  exact ⟨zeroAddUp, nothingAddUp, finite, same, differ, collision⟩

end Bill

end ManaCost
