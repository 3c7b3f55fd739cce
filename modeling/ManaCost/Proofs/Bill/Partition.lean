import ManaCost.Proofs.Bill.Payment
import ManaCost.Proofs.Cost.Surplus

namespace ManaCost.Bill

/-!
# Bills split by what they share

The main statements are `Bill.parts_isSplit`, by which two bills of exact amounts are split without
loss or overlap, and `Bill.reduce_eq_leftOnly`, by which a payment of any amount that takes what
there is, or finds all it asks for, leaves the first part of the split.
-/

/-- Three parts of two bills make the bills up, and only the second is held by both. -/
structure IsSplit
    (left right : Bill)
    (parts : Bill × Bill × Bill) :
    Prop where
  /-- A bill of `{0}` is made up of nothing. -/
  left_eq : (parts.1.add parts.2.1).cost = left.cost.orEmpty
  right_eq : (parts.2.2.add parts.2.1).cost = right.cost.orEmpty
  count_both : ∀ symbol : Symbol, symbol.isGeneric = false →
    parts.2.1.cost.count symbol = min (left.cost.count symbol) (right.cost.count symbol)
  disjoint : ∀ symbol : Symbol, symbol.isGeneric = false →
    parts.1.cost.count symbol = 0 ∨ parts.2.2.cost.count symbol = 0
  oneGeneric :
    (∀ amount, parts.1.cost.contains (.generic amount) = false) ∨
      ∀ amount, parts.2.2.cost.contains (.generic amount) = false

section Parts

variable (left right : Bill)

@[simp] theorem cost_fst_parts :
    (left.parts right).1.cost = (Partition.of left.cost right.cost).leftOnly :=
  cost_ofTally _

@[simp] theorem cost_fst_snd_parts :
    (left.parts right).2.1.cost = (Partition.of left.cost right.cost).both :=
  cost_ofTally _

@[simp] theorem cost_snd_snd_parts :
    (left.parts right).2.2.cost = (Partition.of left.cost right.cost).rightOnly :=
  cost_ofTally _

/-- Two bills that change places change the parts that only one of them has. -/
theorem parts_swap :
    right.parts left =
      ((left.parts right).2.2, (left.parts right).2.1, (left.parts right).1) := by
  rw [parts_eq, parts_eq, Partition.of_swap left.cost]
  rfl

end Parts

/-- Two bills of exact amounts are split into parts that make them up again, whichever comes
first. -/
theorem parts_isSplit
    (left right : Bill)
    (leftExact : left.cost.generic.IsExact)
    (rightExact : right.cost.generic.IsExact) :
    IsSplit left right (left.parts right) ∧
      right.parts left =
        ((left.parts right).2.2, (left.parts right).2.1, (left.parts right).1) := by
  refine ⟨⟨?_, ?_, ?_, ?_, ?_⟩, parts_swap left right⟩
  · rw [cost_add, cost_fst_parts, cost_fst_snd_parts]
    exact Partition.leftOnly_add_both left.cost right.cost leftExact rightExact
  · rw [cost_add, cost_snd_snd_parts, cost_fst_snd_parts,
      Partition.rightOnly_eq_leftOnly, Partition.both_comm]
    exact Partition.leftOnly_add_both right.cost left.cost rightExact leftExact
  · intro symbol notGeneric
    rw [cost_fst_snd_parts]
    exact Partition.count_both left.cost right.cost notGeneric
  · intro symbol notGeneric
    rw [cost_fst_parts, cost_snd_snd_parts, Partition.rightOnly_eq_leftOnly,
      Partition.count_leftOnly _ _ notGeneric, Partition.count_leftOnly _ _ notGeneric]
    omega
  · have absent (one other : Cost) (none : (Partition.of one other).leftOnly.generic = .zero)
        (amount : Amount) : (Partition.of one other).leftOnly.contains (.generic amount) = false :=
      Bool.eq_false_of_not_eq_true fun holds =>
        Cost.generic_ne_zero_of_contains (Partition.leftOnly_ne_free one other) holds none
    rw [cost_fst_parts, cost_snd_snd_parts]
    have oneGeneric := Partition.generic_leftOnly_or left.cost right.cost
    rw [Partition.rightOnly_eq_leftOnly] at oneGeneric ⊢
    exact oneGeneric.imp (absent left.cost right.cost) (absent right.cost left.cost)


/-- The hybrid of white and blue. -/
def whiteBlue : Symbol :=
  .hybrid
    { options := [.pip .white, .pip .blue]
      laidOut := ⟨[.pip .blue, .pip .white], by decide +kernel⟩
      several := by decide }

/-- Two generic mana, half a red pip and two hybrids. -/
def twoHalfRedHybrids : Bill :=
  .plain (.ofSymbols [.generic .two, .half .red, whiteBlue, whiteBlue])

/-- Infinitely much generic mana, a red pip, half a red one and a hybrid. -/
def infiniteRedHalfRedHybrid : Bill :=
  .plain (.ofSymbols [.generic .infinite, .pip .red, .half .red, whiteBlue])

/-- Two generic mana, half a red pip and one of two hybrids are shared with more of each. -/
theorem parts_isSplit_hybrids :
    twoHalfRedHybrids.cost.generic.IsExact ∧
      infiniteRedHalfRedHybrid.cost.generic.IsExact ∧
        IsSplit twoHalfRedHybrids infiniteRedHalfRedHybrid
          (.plain (.ofSymbols [whiteBlue]),
            .plain (.ofSymbols [.generic .two, .half .red, whiteBlue]),
            classify (.ofSymbols [.generic .infinite, .pip .red])) ∧
          infiniteRedHalfRedHybrid.parts twoHalfRedHybrids =
            (classify (.ofSymbols [.generic .infinite, .pip .red]),
              .plain (.ofSymbols [.generic .two, .half .red, whiteBlue]),
              .plain (.ofSymbols [whiteBlue])) := by
  have leftExact : twoHalfRedHybrids.cost.generic.IsExact := by decide +kernel
  have rightExact : infiniteRedHalfRedHybrid.cost.generic.IsExact := by decide +kernel
  have shape : twoHalfRedHybrids.parts infiniteRedHalfRedHybrid =
      (.plain (.ofSymbols [whiteBlue]),
        .plain (.ofSymbols [.generic .two, .half .red, whiteBlue]),
        classify (.ofSymbols [.generic .infinite, .pip .red])) := by
    decide +kernel
  have split :=
    parts_isSplit twoHalfRedHybrids infiniteRedHalfRedHybrid leftExact rightExact
  rw [shape] at split
  exact ⟨leftExact, rightExact, split⟩

/-- A bill, or `{0}` when it has no symbols. -/
def orFree
    (bill : Bill) :
    Bill :=
  if bill.cost.isEmpty then classify .free else bill

theorem orFree_classify
    (cost : Cost) :
    (classify cost).orFree = classify cost.orFree := by
  unfold orFree Cost.orFree
  rw [cost_classify]
  split <;> rfl

/--
Paying and splitting agree on amounts of any size.  What a payment leaves when each symbol is paid
with its own copies as far as they go is what only the payer has; when the payment has nothing of its
own, no policy makes a difference.
-/
theorem reduce_eq_leftOnly
    (payer : PureCost)
    (payment : Bill)
    (pure : payment.cost.isPure = true)
    (finite : payer.cost.generic ≠ .infinite) :
    (Bill.payable payer).reduce payment .taking =
        .ok (.ok ((Bill.payable payer).parts payment).1.orFree) ∧
      (((Bill.payable payer).parts payment).2.2.cost.isEmpty = true →
        ∀ policy, (Bill.payable payer).reduce payment policy =
          .ok (.ok ((Bill.payable payer).parts payment).1.orFree)) := by
  have left : ((Bill.payable payer).parts payment).1.orFree =
      classify (Partition.of payer.cost payment.cost).leftOnly.orFree := by
    rw [parts_eq, orFree_classify]
    rfl
  constructor
  · rw [left, reduce_payable payer payment .taking pure, Cost.reduce_taking payment.cost finite]
    rfl
  · intro covered policy
    rw [cost_snd_snd_parts, Partition.rightOnly_eq_leftOnly, Partition.isEmpty_leftOnly_iff]
      at covered
    rw [left, reduce_payable payer payment policy pure,
      Cost.reduce_eq_leftOnly_of_within policy finite covered]
    rfl

/-- Two generic mana, two white pips and a variable. -/
def twoWhiteWhiteX : PureCost where
  cost := .ofSymbols [.generic .two, .pip .white, .pip .white, .var .x]
  isPure := by decide +kernel

/-- Half a generic mana and a white pip. -/
def halfAndWhite : Bill :=
  .plain (.ofSymbols [.generic .half, .pip .white])

/-- A payment that is at hand leaves the same under every policy. -/
theorem reduce_eq_leftOnly_half_and_white :
    halfAndWhite.cost.isPure = true ∧
      twoWhiteWhiteX.cost.generic ≠ .infinite ∧
        ((Bill.payable twoWhiteWhiteX).parts halfAndWhite).2.2.cost.isEmpty = true ∧
          ∀ policy, (Bill.payable twoWhiteWhiteX).reduce halfAndWhite policy =
            .ok (.ok (classify
              (.ofSymbols [.generic .one, .generic .half, .pip .white, .var .x]))) := by
  have pure : halfAndWhite.cost.isPure = true := by decide +kernel
  have finite : twoWhiteWhiteX.cost.generic ≠ .infinite := by decide +kernel
  have covered : ((Bill.payable twoWhiteWhiteX).parts halfAndWhite).2.2.cost.isEmpty = true := by
    decide +kernel
  have shape : ((Bill.payable twoWhiteWhiteX).parts halfAndWhite).1.orFree =
      classify (.ofSymbols [.generic .one, .generic .half, .pip .white, .var .x]) := by
    decide +kernel
  obtain ⟨-, everyPolicy⟩ := reduce_eq_leftOnly twoWhiteWhiteX halfAndWhite pure finite
  rw [shape] at everyPolicy
  exact ⟨pure, finite, covered, everyPolicy covered⟩

end ManaCost.Bill
