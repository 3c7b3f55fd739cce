import Mathlib
import ManaCost.Bill
import ManaCost.Proofs.Cost.Canonical

namespace ManaCost.Bill

/-!
# Bills of a session

A session reads bills, builds them from symbols and counts, and derives further bills from those it
has.  Every operation ends in polishing, which makes its result canonical whatever it is given.  The
main statement is `Bill.exists_reachable_iff_canonical`: the contents of bills that a session
reaches are exactly the canonical tallies, and their symbols and counts give them back.
-/

/-- Bills that a session reaches. -/
inductive Reachable : Bill → Prop where
  | read
      {text : String}
      {bill : Bill}
      (isRead : ofText text = .ok bill) :
      Reachable bill
  | makeSymbols
      {symbols : List Symbol}
      {standing : Standing}
      {bill : Bill}
      (made : make (.ofSymbols symbols) standing = .ok bill) :
      Reachable bill
  | makeCounts
      {counts : List (Symbol × Int)}
      {standing : Standing}
      {bill : Bill}
      (made : make (.ofCounts counts) standing = .ok bill) :
      Reachable bill
  | collectSymbols
      {symbols : List Symbol}
      {standing : Standing}
      {bill : Bill}
      (collected : collect (.ofSymbols symbols) standing = .ok bill) :
      Reachable bill
  | collectCounts
      {counts : List (Symbol × Int)}
      {standing : Standing}
      {bill : Bill}
      (collected : collect (.ofCounts counts) standing = .ok bill) :
      Reachable bill
  | total
      {bills : List Bill}
      {standing : Standing}
      {sum : Bill}
      (reached : ∀ bill ∈ bills, Reachable bill)
      (added : total bills standing = .ok sum) :
      Reachable sum
  | add
      {left right : Bill}
      (leftReached : Reachable left)
      (rightReached : Reachable right) :
      Reachable (left.add right)
  | substitute
      {bill replacement result : Bill}
      {name : Variable}
      (reached : Reachable bill)
      (replacementReached : Reachable replacement)
      (substituted : bill.substitute name replacement = .ok result) :
      Reachable result
  | reduce
      {payer payment remainder : Bill}
      {policy : Policy}
      (payerReached : Reachable payer)
      (paymentReached : Reachable payment)
      (paid : payer.reduce payment policy = .ok (.ok remainder)) :
      Reachable remainder
  | copy
      {bill : Bill}
      (reached : Reachable bill) :
      Reachable bill.copy
  | leftOnly
      {left right : Bill}
      (leftReached : Reachable left)
      (rightReached : Reachable right) :
      Reachable (left.parts right).1
  | both
      {left right : Bill}
      (leftReached : Reachable left)
      (rightReached : Reachable right) :
      Reachable (left.parts right).2.1
  | rightOnly
      {left right : Bill}
      (leftReached : Reachable left)
      (rightReached : Reachable right) :
      Reachable (left.parts right).2.2

theorem payableOf_cost
    (content : PureCost) :
    payableOf content.cost = .ok (.payable content) :=
  dif_pos content.isPure

/-- The bill of a tally that gives its cost back, with its own standing. -/
theorem make_of_ofTally_eq
    {bill : Bill}
    {tally : Tally}
    (same : Cost.ofTally tally = bill.cost) :
    make tally bill.standing = .ok bill := by
  cases bill with
  | plain content =>
      have shape : Cost.ofTally tally = content := same
      rw [standing, make, shape]
  | payable content =>
      have shape : Cost.ofTally tally = content.cost := same
      rw [standing, make, shape, payableOf_cost]

/-- The bill of a tally that gives its cost back, with at least its own standing. -/
theorem cost_collect_of_ofTally_eq
    {bill : Bill}
    {tally : Tally}
    (same : Cost.ofTally tally = bill.cost) :
    (collect tally bill.standing).map cost = .ok bill.cost := by
  cases bill with
  | plain content =>
      rw [standing, collect, Except.map, cost_ofTally, same]
  | payable content =>
      have shape : Cost.ofTally tally = content.cost := same
      rw [standing, collect, shape, payableOf_cost]
      rfl

/-- Building a bill from its own tally gives the same symbols in the same order. -/
structure IsGivenBackBy
    (bill : Bill)
    (own : Tally) :
    Prop where
  made : make own bill.standing = .ok bill
  collected : (collect own bill.standing).map cost = .ok bill.cost

/-- The contents of bills that a session reaches are the canonical tallies, and each such bill is
given back by its own symbols and by its own counts. -/
theorem exists_reachable_iff_canonical
    (entries : Tally) :
    (∃ bill : Bill, bill.Reachable ∧ bill.cost.entries = entries) ↔
      entries.Canonical ∧
        ∀ bill : Bill, bill.cost.entries = entries →
          bill.IsGivenBackBy (.ofSymbols bill.cost.symbols) ∧
            bill.IsGivenBackBy
              (.ofCounts (entries.map fun entry => (entry.1, (entry.2 : Int)))) := by
  constructor
  · rintro ⟨reached, -, rfl⟩
    refine ⟨reached.cost.canonical_entries, ?_⟩
    intro bill sameEntries
    have symbols := bill.cost.ofSymbols_symbols
    have counts := bill.cost.ofTally_ofCounts
    rw [← sameEntries]
    exact ⟨⟨make_of_ofTally_eq symbols, cost_collect_of_ofTally_eq symbols⟩,
      ⟨make_of_ofTally_eq counts, cost_collect_of_ofTally_eq counts⟩⟩
  · rintro ⟨canonical, -⟩
    have counts := Tally.ofCounts_of_distinct canonical.distinct
    refine ⟨.plain (.ofTally entries), ?_, ?_⟩
    · have made :
          make (.ofCounts (entries.map fun entry => (entry.1, (entry.2 : Int)))) .plain =
            .ok (.plain (.ofTally entries)) := by
        rw [counts, make]
      exact .makeCounts made
    · refine canonical.polish_eq ?_
      rw [Tally.present_of_positive canonical.counted]

end ManaCost.Bill
