import ManaCost.Proofs.Bill.Partition
import ManaCost.Proofs.Bill.Reading

namespace ManaCost

/-!
# The standing of bills

A bill pays when it is payable exactly if it holds no hybrid symbol.  Every operation gives such
bills, whatever the standing of its operands, but for one: a map of counts is asked for the symbols
that it names, and polishing drops those that it counts zero times or less.  The main statement is
`Bill.paysWhenPure_of_isResult`.
-/

namespace Tally

theorem mem_map_fst_put
    (tally : Tally)
    (added symbol : Symbol)
    (count : Nat) :
    symbol ∈ (tally.put added count).map Prod.fst ↔
      symbol ∈ tally.map Prod.fst ∨ symbol = added := by
  induction tally with
  | nil => simp [put]
  | cons entry rest inductionHypothesis =>
      simp only [put]
      split
      · rename_i same
        simp only [List.map_cons, List.mem_cons, same]
        tauto
      · simp only [List.map_cons, List.mem_cons, inductionHypothesis]
        tauto

/-- A map of counts is tallied with all the symbols that it names. -/
theorem mem_map_fst_ofCounts
    (counts : List (Symbol × Int))
    (symbol : Symbol) :
    symbol ∈ (ofCounts counts).map Prod.fst ↔ symbol ∈ counts.map Prod.fst := by
  have onto (before : Tally) :
      symbol ∈ (counts.foldl (fun tally entry => tally.put entry.1 entry.2.toNat) before).map
          Prod.fst ↔
        symbol ∈ before.map Prod.fst ∨ symbol ∈ counts.map Prod.fst := by
    induction counts generalizing before with
    | nil => simp
    | cons entry rest inductionHypothesis =>
        rw [List.foldl_cons, inductionHypothesis, mem_map_fst_put, List.map_cons, List.mem_cons,
          or_assoc]
  rw [ofCounts, onto]
  simp

theorem isPure_iff_mem_map_fst
    {tally : Tally} :
    tally.isPure = true ↔ ∀ symbol ∈ tally.map Prod.fst, symbol.isPure = true := by
  rw [isPure, List.all_eq_true, List.forall_mem_map]

end Tally

namespace Bill

/-- A bill is payable exactly if it is pure, and then it pays for pure bills and for no others. -/
structure PaysWhenPure
    (bill : Bill) :
    Prop where
  standing_iff : bill.standing = .payable ↔ bill.cost.isPure = true
  reduce_iff : bill.cost.isPure = true → ∀ payment policy,
    (∃ outcome, bill.reduce payment policy = .ok outcome) ↔ payment.cost.isPure = true

/-- Only a plain bill of pure symbols does not pay. -/
theorem paysWhenPure_iff
    {bill : Bill} :
    bill.PaysWhenPure ↔ (bill.cost.isPure = true → bill.standing = .payable) := by
  constructor
  · intro pays
    exact pays.standing_iff.2
  · intro payableIfPure
    cases bill with
    | plain content =>
        have notPure : ¬content.isPure = true := fun pure => nomatch payableIfPure pure
        exact ⟨⟨nofun, fun pure => absurd pure notPure⟩, fun pure => absurd pure notPure⟩
    | payable content =>
        refine ⟨⟨fun _ => content.isPure, fun _ => rfl⟩, ?_⟩
        intro _ payment policy
        by_cases pure : payment.cost.isPure = true
        · exact ⟨fun _ => pure, fun _ => ⟨_, reduce_payable content payment policy pure⟩⟩
        · simp [reduce, pure]

theorem standing_ofTally_iff
    (tally : Tally) :
    (ofTally tally).standing = .payable ↔ tally.isPure = true := by
  unfold ofTally
  split
  · rename_i pure
    exact iff_of_true rfl pure
  · rename_i hybrid
    refine iff_of_false ?_ hybrid
    intro payable
    cases payable

/-- A plain bill of pure symbols comes of a tally that names a hybrid and loses it. -/
theorem paysWhenPure_ofTally_iff
    (tally : Tally) :
    (ofTally tally).PaysWhenPure ↔
      ((Cost.ofTally tally).isPure = true → tally.isPure = true) := by
  rw [paysWhenPure_iff, cost_ofTally, standing_ofTally_iff]

theorem paysWhenPure_of_countsHybrids
    {tally : Tally}
    (counts : tally.CountsHybrids) :
    (ofTally tally).PaysWhenPure :=
  (paysWhenPure_ofTally_iff tally).2 counts.isPure

theorem paysWhenPure_of_payableOf
    {cost : Cost}
    {bill : Bill}
    (made : payableOf cost = .ok bill) :
    bill.PaysWhenPure := by
  unfold payableOf at made
  split at made
  · rw [← Except.ok.inj made]
    exact paysWhenPure_iff.2 fun _ => rfl
  · cases made

/-- A tally that counts its hybrid symbols is collected as a bill that pays when it is pure, whatever
standing is asked for. -/
theorem paysWhenPure_of_collect
    {tally : Tally}
    {standing : Standing}
    {bill : Bill}
    (counts : tally.CountsHybrids)
    (collected : collect tally standing = .ok bill) :
    bill.PaysWhenPure := by
  cases standing with
  | plain => exact Except.ok.inj collected ▸ paysWhenPure_of_countsHybrids counts
  | payable => exact paysWhenPure_of_payableOf collected

/-- A remainder is made to be payable, and so is the `{0}` that stands for an empty one. -/
theorem exists_payableOf_of_reduce
    {payer payment remainder : Bill}
    {policy : Policy}
    (paid : payer.reduce payment policy = .ok (.ok remainder)) :
    ∃ cost, payableOf cost = .ok remainder := by
  unfold reduce at paid
  split at paid
  · cases paid
  split at paid
  case isFalse => cases paid
  split at paid
  · cases paid
  · rename_i tally _
    cases made : make tally .payable with
    | error fault => simp [made, bind, Except.bind] at paid
    | ok whole =>
        simp only [made, bind, Except.bind] at paid
        split at paid
        · cases freeMade : make (.ofSymbols [.generic .zero]) .payable with
          | error fault => simp [freeMade] at paid
          | ok nothing =>
              simp only [freeMade, pure, Except.pure, Except.ok.injEq] at paid
              exact ⟨_, paid ▸ freeMade⟩
        · simp only [pure, Except.pure, Except.ok.injEq] at paid
          exact ⟨_, paid ▸ made⟩

/-- Bills that one operation gives, whatever the standing of the bills that it is given.  A plain
bill of a map of counts is left out, because its standing depends on more than its symbols. -/
inductive IsResult : Bill → Prop where
  | read
      {text : String}
      {bill : Bill}
      (isRead : ofText text = .ok bill) :
      IsResult bill
  | collectSymbols
      {symbols : List Symbol}
      {standing : Standing}
      {bill : Bill}
      (collected : collect (.ofSymbols symbols) standing = .ok bill) :
      IsResult bill
  | collectPayable
      {counts : List (Symbol × Int)}
      {bill : Bill}
      (collected : collect (.ofCounts counts) .payable = .ok bill) :
      IsResult bill
  | total
      {bills : List Bill}
      {standing : Standing}
      {sum : Bill}
      (added : total bills standing = .ok sum) :
      IsResult sum
  | add (left right : Bill) : IsResult (left.add right)
  | substitute
      {bill replacement result : Bill}
      {name : Variable}
      (substituted : bill.substitute name replacement = .ok result) :
      IsResult result
  | reduce
      {payer payment remainder : Bill}
      {policy : Policy}
      (paid : payer.reduce payment policy = .ok (.ok remainder)) :
      IsResult remainder
  | copy (bill : Bill) : IsResult bill.copy
  | leftOnly (left right : Bill) : IsResult (left.parts right).1
  | both (left right : Bill) : IsResult (left.parts right).2.1
  | rightOnly (left right : Bill) : IsResult (left.parts right).2.2

/--
The results of operations are payable exactly if they are pure.  A bill that is collected from a map
of counts is so too, unless its symbols are pure while the map names a hybrid.
-/
theorem paysWhenPure_of_isResult
    (bill : Bill) :
    (bill.IsResult → bill.PaysWhenPure) ∧
      ∀ counts, collect (.ofCounts counts) .plain = .ok bill →
        (bill.PaysWhenPure ↔
          (bill.cost.isPure = true → ∀ entry ∈ counts, entry.1.isPure = true)) := by
  constructor
  · -- Each operation hands over a tally of its own kind; none of them loses a hybrid symbol.
    intro result
    cases result with
    | @read text _ isRead =>
        rw [ofText] at isRead
        cases groups : readGroups text.toList 0 none text.toList with
        | error fault => simp [groups] at isRead
        | ok symbols =>
            rw [groups] at isRead
            exact paysWhenPure_of_collect (Tally.positive_ofSymbols symbols).countsHybrids isRead
    | @collectSymbols symbols _ _ collected =>
        exact paysWhenPure_of_collect (Tally.positive_ofSymbols symbols).countsHybrids collected
    | collectPayable collected => exact paysWhenPure_of_payableOf collected
    | @total bills _ _ added =>
        exact paysWhenPure_of_collect
          (Cost.positive_totalTally (bills.map cost)).countsHybrids added
    | add left right =>
        exact paysWhenPure_of_countsHybrids <| Tally.Positive.countsHybrids <|
          Tally.Positive.merge left.cost.positive_entries right.cost.positive_entries
    | @substitute bill replacement _ name substituted =>
        rw [Bill.substitute] at substituted
        split at substituted
        · rename_i pure
          exact paysWhenPure_of_collect
            (bill.cost.countsHybrids_substituteTally name pure) substituted
        · cases substituted
    | reduce paid =>
        obtain ⟨_, made⟩ := exists_payableOf_of_reduce paid
        exact paysWhenPure_of_payableOf made
    | copy bill =>
        exact paysWhenPure_of_collect
          (Tally.Positive.countsHybrids bill.cost.positive_entries) (collect_entries bill)
    | leftOnly left right =>
        exact paysWhenPure_of_countsHybrids (Partition.positive_ownTally _ _ _).countsHybrids
    | both left right =>
        exact paysWhenPure_of_countsHybrids (Partition.positive_commonTally _ _ _).countsHybrids
    | rightOnly left right =>
        exact paysWhenPure_of_countsHybrids (Partition.positive_ownTally _ _ _).countsHybrids
  · -- A map is asked for its names, which include those that polishing drops.
    intro counts collected
    obtain rfl := Except.ok.inj collected
    rw [paysWhenPure_ofTally_iff, cost_ofTally, Tally.isPure_iff_mem_map_fst]
    simp only [Tally.mem_map_fst_ofCounts, List.forall_mem_map]

/-- A white pip and a hybrid. -/
def whiteBesideHybrid : Bill :=
  .plain (.ofSymbols [.pip .white, whiteBlue])

/-- Two white pips. -/
def twoWhite : Bill :=
  classify (.ofSymbols [.pip .white, .pip .white])

/-- What a plain bill has beside its hybrids pays, and so do pips that are counted beside a debt. -/
theorem paysWhenPure_white_pips :
    (whiteBesideHybrid.parts (.plain (.ofSymbols [whiteBlue]))).1.IsResult ∧
      (whiteBesideHybrid.parts (.plain (.ofSymbols [whiteBlue]))).1.PaysWhenPure ∧
        collect (.ofCounts [(.pip .white, 2), (.pip .blue, -1)]) .plain = .ok twoWhite ∧
          twoWhite.PaysWhenPure := by
  have result : (whiteBesideHybrid.parts (.plain (.ofSymbols [whiteBlue]))).1.IsResult :=
    .leftOnly _ _
  have collected :
      collect (.ofCounts [(.pip .white, 2), (.pip .blue, -1)]) .plain = .ok twoWhite := by
    decide +kernel
  have named : ∀ entry ∈ [(Symbol.pip .white, (2 : Int)), (.pip .blue, -1)],
      entry.1.isPure = true := by
    decide
  exact ⟨result, (paysWhenPure_of_isResult _).1 result, collected,
    ((paysWhenPure_of_isResult twoWhite).2 _ collected).2 fun _ => named⟩

/-- A white pip that is counted beside no hybrids at all does not pay for itself. -/
theorem not_paysWhenPure_white_without_hybrids :
    (collect (.ofCounts [(.pip .white, 1), (whiteBlue, 0)]) .plain).map
        (fun bill => (bill.standing, bill.cost.isPure, bill.reduce bill .taking)) =
      .ok (.plain, true, .error (.notPayable .reduce)) := by
  decide +kernel

end Bill

end ManaCost
