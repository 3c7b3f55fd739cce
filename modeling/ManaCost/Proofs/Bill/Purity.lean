import ManaCost.Bill
import ManaCost.Proofs.Cost.Remainder
import ManaCost.Proofs.Cost.Substitution

namespace ManaCost

/-!
# Bills told by their cost

`Bill.ofTally` asks the symbols of a tally that is not yet polished, and polishing drops symbols.
Where a tally counts every hybrid symbol that it names, the bill is the one that its cost tells:
payable when the cost is pure.  Every operation on bills hands such a tally over, so that its result
is known by its cost; there is one equation for each of them.
-/

namespace Tally

variable {tally left right : Tally}

/-- Every hybrid symbol that the tally names is counted at least once. -/
def CountsHybrids
    (tally : Tally) :
    Prop :=
  ∀ entry ∈ tally, entry.1.isPure = false → 0 < entry.2

theorem Positive.countsHybrids
    (positive : tally.Positive) :
    tally.CountsHybrids :=
  fun entry member _ => positive entry member

theorem countsHybrids_of_isPure
    (pure : tally.isPure = true) :
    tally.CountsHybrids := by
  intro entry member hybrid
  exact absurd hybrid (by simp [List.all_eq_true.1 pure entry member])

theorem CountsHybrids.bump
    (counts : tally.CountsHybrids)
    {symbol : Symbol}
    {more : Nat}
    (counted : symbol.isPure = false → 0 < more) :
    (tally.bump symbol more).CountsHybrids := by
  induction tally with
  | nil => exact List.forall_mem_singleton.2 counted
  | cons first rest inductionHypothesis =>
      obtain ⟨firstCounted, restCounts⟩ := List.forall_mem_cons.1 counts
      rw [Tally.bump]
      split
      · refine List.forall_mem_cons.2 ⟨fun hybrid => ?_, restCounts⟩
        exact Nat.add_pos_right first.2 (counted hybrid)
      · exact List.forall_mem_cons.2 ⟨firstCounted, inductionHypothesis restCounts⟩

theorem CountsHybrids.merge
    (leftCounts : left.CountsHybrids)
    (rightCounts : right.CountsHybrids) :
    (left.merge right).CountsHybrids := by
  induction right generalizing left with
  | nil => exact leftCounts
  | cons entry rest inductionHypothesis =>
      obtain ⟨counted, restCounts⟩ := List.forall_mem_cons.1 rightCounts
      exact inductionHypothesis (leftCounts.bump counted) restCounts

theorem CountsHybrids.append
    (leftCounts : left.CountsHybrids)
    (rightCounts : right.CountsHybrids) :
    CountsHybrids (left ++ right) :=
  List.forall_mem_append.2 ⟨leftCounts, rightCounts⟩

/-- No hybrid symbol of such a tally is lost in a pure cost. -/
theorem CountsHybrids.isPure
    (counts : tally.CountsHybrids)
    (pure : (Cost.ofTally tally).isPure = true) :
    tally.isPure = true := by
  refine List.all_eq_true.2 fun entry member => ?_
  by_contra hybrid
  obtain ⟨symbol, copies⟩ := entry
  cases symbol with
  | single option => exact hybrid rfl
  | hybrid options =>
      have none := Cost.isPure_iff.1 pure (.hybrid options) rfl
      rw [Cost.count_ofTally tally rfl] at none
      have few : copies ≤ 0 := none ▸ le_copies_of_mem member
      exact absurd (counts _ member rfl) few.not_gt

theorem positive_ofSymbols
    (symbols : List Symbol) :
    (ofSymbols symbols).Positive := by
  rw [Cost.tallyOfSymbols_eq]
  refine Positive.merge (fun _ member => absurd member List.not_mem_nil) ?_
  exact List.forall_mem_map.2 fun _ _ => Nat.one_pos

end Tally

/-! ## The tallies that operations hand over -/

namespace Cost

theorem positive_totalTally
    (costs : List Cost) :
    (totalTally costs).Positive := by
  have entriesPositive : Tally.Positive (allEntries costs) := by
    intro entry member
    obtain ⟨part, -, inPart⟩ := List.mem_flatMap.1 member
    exact part.positive_entries entry inPart
  rw [totalTally_eq]
  exact Tally.Positive.merge (fun _ member => absurd member List.not_mem_nil) entriesPositive

/-- The symbols that take the place of a variable are counted zero times when the variable does not
occur, but they are pure. -/
theorem countsHybrids_substituteTally
    (cost : Cost)
    (name : Variable)
    {replacement : Cost}
    (pure : replacement.isPure = true) :
    (cost.substituteTally name replacement).CountsHybrids := by
  refine Tally.CountsHybrids.merge ?_ ?_
  · intro entry member _
    exact cost.positive_entries entry (List.mem_of_mem_filter member)
  · refine Tally.countsHybrids_of_isPure (List.all_eq_true.2 ?_)
    intro entry member
    obtain ⟨source, inReplacement, rfl⟩ := List.mem_map.1 member
    exact List.all_eq_true.1 pure source inReplacement

/-- What is left of a pure cost is pure. -/
theorem isPure_reduceTally
    {payer payment : Cost}
    {policy : Policy}
    {left : Tally}
    (pure : payer.isPure = true)
    (reduced : payer.reduceTally payment policy = .ok left) :
    left.isPure = true := by
  rw [reduceTally] at reduced
  split at reduced
  · cases reduced
  · obtain rfl := Except.ok.inj reduced
    refine Tally.isPure_append ?_ ?_
    · refine List.all_eq_true.2 fun entry member => ?_
      obtain ⟨source, inPayer, rfl⟩ := List.mem_map.1 member
      exact List.all_eq_true.1 pure source (List.mem_of_mem_filter inPayer)
    · rename_i needed _
      rcases payer.keptGeneric_cases needed with single | ⟨none, -⟩
      · rw [single]
        rfl
      · rw [none]
        rfl

end Cost

namespace Partition

theorem positive_genericPart
    (amount : Amount) :
    (genericPart amount).Positive := by
  unfold genericPart
  split
  · exact List.forall_mem_singleton.2 Nat.one_pos
  · exact fun _ member => absurd member List.not_mem_nil

theorem positive_ownTally
    (cost other : Cost)
    (sharedGeneric : Amount) :
    (ownTally cost other sharedGeneric).Positive :=
  List.forall_mem_append.2 ⟨Tally.positive_present _, positive_genericPart _⟩

theorem positive_commonTally
    (left right : Cost)
    (sharedGeneric : Amount) :
    (commonTally left right sharedGeneric).Positive :=
  List.forall_mem_append.2 ⟨Tally.positive_present _, positive_genericPart _⟩

end Partition

/-! ## The bills that operations give -/

namespace Bill

/-- The bill that a cost tells, payable when the cost is pure. -/
def classify
    (cost : Cost) :
    Bill :=
  if isPure : cost.isPure = true then
    .payable ⟨cost, isPure⟩
  else
    .plain cost

/-- Classifying a cost keeps it. -/
@[simp] theorem cost_classify
    (content : Cost) :
    (classify content).cost = content := by
  unfold classify
  split <;> rfl

theorem classify_of_isPure
    {cost : Cost}
    (pure : cost.isPure = true) :
    classify cost = .payable ⟨cost, pure⟩ :=
  dif_pos pure

theorem payableOf_of_isPure
    {cost : Cost}
    (pure : cost.isPure = true) :
    payableOf cost = .ok (classify cost) := by
  rw [payableOf, dif_pos pure, classify_of_isPure pure]

/-- A tally that counts its hybrid symbols makes the bill that its cost tells. -/
theorem ofTally_eq_classify
    {tally : Tally}
    (counts : tally.CountsHybrids) :
    ofTally tally = classify (.ofTally tally) := by
  by_cases pure : tally.isPure = true
  · rw [ofTally, dif_pos pure, classify_of_isPure (Cost.isPure_ofTally pure)]
  · rw [ofTally, dif_neg pure, classify, dif_neg (mt counts.isPure pure)]

theorem collect_of_positive
    {tally : Tally}
    (positive : tally.Positive) :
    collect tally .plain = .ok (classify (.ofTally tally)) :=
  congrArg Except.ok (ofTally_eq_classify positive.countsHybrids)

/-- Symbols are collected as the bill of the cost that they make. -/
theorem collect_ofSymbols
    (symbols : List Symbol) :
    collect (.ofSymbols symbols) .plain = .ok (classify (.ofSymbols symbols)) :=
  collect_of_positive (Tally.positive_ofSymbols symbols)

theorem ofText_eq
    (text : String) :
    ofText text =
      match readGroups text.toList 0 none text.toList with
      | .error fault => .error fault
      | .ok symbols => .ok (classify (.ofSymbols symbols)) := by
  rw [ofText]
  cases readGroups text.toList 0 none text.toList with
  | error fault => rfl
  | ok symbols => exact collect_ofSymbols symbols

/-- A text is read as the bill of the cost that is read from it. -/
theorem ofText_eq_map
    (text : String) :
    ofText text = (Cost.ofText text).map classify := by
  rw [ofText_eq, Cost.ofText, Cost.read]
  cases readGroups text.toList 0 none text.toList <;> rfl

/-- A total is the bill of the total cost. -/
theorem total_plain
    (bills : List Bill) :
    total bills .plain = .ok (classify (Cost.total (bills.map cost))) :=
  collect_of_positive (Cost.positive_totalTally (bills.map cost))

theorem add_eq
    (left right : Bill) :
    left.add right = classify (left.cost.add right.cost) :=
  ofTally_eq_classify <| Tally.Positive.countsHybrids <|
    Tally.Positive.merge left.cost.positive_entries right.cost.positive_entries

theorem cost_add
    (left right : Bill) :
    (left.add right).cost = left.cost.add right.cost :=
  cost_ofTally _

/-- Payable bills have a payable sum. -/
theorem add_payable
    (left right : PureCost) :
    (Bill.payable left).add (.payable right) =
      .payable ⟨left.cost.add right.cost, Cost.isPure_add left.isPure right.isPure⟩ :=
  (add_eq _ _).trans (classify_of_isPure _)

/-- A pure bill may take the place of a variable. -/
theorem substitute_of_isPure
    (bill : Bill)
    (name : Variable)
    {replacement : Bill}
    (isPure : replacement.cost.isPure = true) :
    bill.substitute name replacement =
      .ok (classify (bill.cost.substituted name replacement.cost)) := by
  rw [substitute, if_pos isPure, collect,
    ofTally_eq_classify (bill.cost.countsHybrids_substituteTally name isPure),
    Cost.ofTally_substituteTally]

/-- A copy is collected from the symbols that a bill holds, with the standing of the bill. -/
theorem collect_entries
    (bill : Bill) :
    collect bill.cost.entries bill.standing = .ok bill.copy := by
  cases bill with
  | plain content => rfl
  | payable content => exact dif_pos (Cost.isPure_ofTally content.isPure)

/-- A pure payment leaves the bill of what it leaves of the cost. -/
theorem reduce_payable
    (payer : PureCost)
    (payment : Bill)
    (policy : Policy)
    (pure : payment.cost.isPure = true) :
    (Bill.payable payer).reduce payment policy =
      .ok ((payer.cost.reduce payment.cost policy).map classify) := by
  rw [reduce, if_pos pure, Cost.reduce]
  cases reduced : payer.cost.reduceTally payment.cost policy with
  | error shortage => rfl
  | ok tally =>
      have made : make tally .payable = .ok (classify (.ofTally tally)) :=
        payableOf_of_isPure (Cost.isPure_ofTally (Cost.isPure_reduceTally payer.isPure reduced))
      have freeMade : make (.ofSymbols [.generic .zero]) .payable = .ok (classify .free) :=
        payableOf_of_isPure (by decide +kernel)
      simp only [made, freeMade, Except.map, bind, Except.bind, cost_classify]
      split <;> rfl

theorem canPay_payable
    (payer : PureCost)
    (payment : Bill)
    (pure : payment.cost.isPure = true) :
    (Bill.payable payer).canPay payment = .ok (payer.cost.canPay payment.cost) := by
  rw [canPay, reduce_payable payer payment .covering pure, Cost.canPay]
  cases payer.cost.reduce payment.cost .covering <;> rfl

/-- The parts of two bills are the bills of the parts of their costs. -/
theorem parts_eq
    (left right : Bill) :
    left.parts right =
      (classify (Partition.of left.cost right.cost).leftOnly,
        classify (Partition.of left.cost right.cost).both,
        classify (Partition.of left.cost right.cost).rightOnly) := by
  have own (cost other : Cost) (sharedGeneric : Amount) :=
    ofTally_eq_classify (Partition.positive_ownTally cost other sharedGeneric).countsHybrids
  have common :=
    ofTally_eq_classify (Partition.positive_commonTally left.cost right.cost
      (left.cost.generic.least right.cost.generic)).countsHybrids
  rw [parts, own, own, common]
  rfl

end Bill

end ManaCost
