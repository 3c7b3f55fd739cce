import ManaCost.Proofs.Bill.Purity
import ManaCost.Settlement

namespace ManaCost.Settlement

/-!
# Settling written bills

Two texts are settled when bills are read from both and the one can be paid out of the other.  The
main statements are `ofTexts_eq_ok_iff`, by which a settlement is what `Settles` says, and
`exists_settles_iff`, by which two texts are settled unless one of them is refused: as a text that is
not read, or as one that has a hybrid symbol.
-/

/-- A text that no bill is read from, or one with a hybrid symbol. -/
def Refused
    (text : String) :
    Prop :=
  (∃ fault, Bill.ofText text = .error fault) ∨
    ∃ bill, Bill.ofText text = .ok bill ∧ bill.cost.isPure = false

/-- Two texts are read as bills, and paying one out of the other has an outcome. -/
structure Settles
    (cost payment : String)
    (policy : Policy)
    (payer paid : Bill)
    (outcome : Except Shortage Bill) :
    Prop where
  costRead : Bill.ofText cost = .ok payer
  paymentRead : Bill.ofText payment = .ok paid
  reduced : payer.reduce paid policy = .ok outcome

variable {text cost payment : String} {policy : Policy}

/-- A payable bill is read from a text unless that is refused. -/
theorem refused_or_exists_payable
    (text : String) :
    Refused text ∨ ∃ content : PureCost, Bill.ofText text = .ok (.payable content) := by
  cases isRead : Cost.ofText text with
  | error fault => exact .inl (.inl ⟨fault, by rw [Bill.ofText_eq_map, isRead, Except.map]⟩)
  | ok content =>
      have bill : Bill.ofText text = .ok (.classify content) := by
        rw [Bill.ofText_eq_map, isRead, Except.map]
      by_cases pure : content.isPure = true
      · exact .inr ⟨⟨content, pure⟩, bill.trans (congrArg Except.ok (Bill.classify_of_isPure pure))⟩
      · exact .inl (.inr ⟨_, bill, by rw [Bill.cost_classify, eq_false_of_ne_true pure]⟩)

theorem not_refused_of_isPure
    {bill : Bill}
    (isRead : Bill.ofText text = .ok bill)
    (pure : bill.cost.isPure = true) :
    ¬Refused text := by
  rintro (⟨fault, unread⟩ | ⟨other, otherRead, hybrid⟩)
  · cases isRead.symm.trans unread
  · obtain rfl := Except.ok.inj (isRead.symm.trans otherRead)
    exact Bool.false_ne_true (hybrid.symm.trans pure)

/-- A payment has an outcome only when both bills are pure. -/
theorem isPure_of_reduce
    {payer paid : Bill}
    {outcome : Except Shortage Bill}
    (reduced : payer.reduce paid policy = .ok outcome) :
    payer.cost.isPure = true ∧ paid.cost.isPure = true := by
  cases payer with
  | plain _ => cases reduced
  | payable content =>
      refine ⟨content.isPure, ?_⟩
      by_contra hybrid
      simp [Bill.reduce, hybrid] at reduced

/-- Two texts are settled exactly when neither is refused. -/
theorem exists_settles_iff :
    (∃ payer paid outcome, Settles cost payment policy payer paid outcome) ↔
      ¬(Refused cost ∨ Refused payment) := by
  constructor
  · rintro ⟨payer, paid, outcome, costRead, paymentRead, reduced⟩
    obtain ⟨payerPure, paidPure⟩ := isPure_of_reduce reduced
    exact not_or.2
      ⟨not_refused_of_isPure costRead payerPure, not_refused_of_isPure paymentRead paidPure⟩
  · intro notRefused
    obtain ⟨costTaken, paymentTaken⟩ := not_or.1 notRefused
    obtain ⟨payer, costRead⟩ := (refused_or_exists_payable cost).resolve_left costTaken
    obtain ⟨paid, paymentRead⟩ := (refused_or_exists_payable payment).resolve_left paymentTaken
    exact ⟨_, _, _, costRead, paymentRead,
      Bill.reduce_payable payer (.payable paid) policy paid.isPure⟩

/-- A settlement of two texts is what they settle. -/
theorem ofTexts_eq_ok_iff
    {settlement : Settlement} :
    ofTexts cost payment policy = .ok settlement ↔
      settlement.policy = policy ∧
        Settles cost payment policy settlement.payer settlement.payment settlement.outcome := by
  constructor
  · intro settled
    cases costRead : Bill.ofText cost with
    | error fault => simp [ofTexts, costRead, bind, Except.bind] at settled
    | ok payer =>
        cases paymentRead : Bill.ofText payment with
        | error fault => simp [ofTexts, costRead, paymentRead, bind, Except.bind] at settled
        | ok paid =>
            simp only [ofTexts, costRead, paymentRead, bind, Except.bind] at settled
            cases payer with
            | plain content => simp [throw, throwThe, MonadExceptOf.throw] at settled
            | payable content =>
                cases reduced : (Bill.payable content).reduce paid policy with
                | error fault => simp [reduced] at settled
                | ok outcome =>
                    simp only [reduced, pure, Except.pure, Except.ok.injEq] at settled
                    exact settled ▸ ⟨rfl, costRead, paymentRead, reduced⟩
  · obtain ⟨payer, paid, otherPolicy, outcome⟩ := settlement
    rintro ⟨rfl, costRead, paymentRead, reduced⟩
    cases payer with
    | plain content => cases reduced
    | payable content =>
        simp only [ofTexts, costRead, paymentRead, reduced, bind, Except.bind, pure, Except.pure]

namespace Settles

variable {payer paid otherPayer otherPaid : Bill} {outcome otherOutcome : Except Shortage Bill}

/-- Neither text of a payment that has an outcome is refused. -/
theorem not_refused
    (settles : Settles cost payment policy payer paid outcome) :
    ¬(Refused cost ∨ Refused payment) :=
  exists_settles_iff.1 ⟨_, _, _, settles⟩

/-- Two texts are settled in one way. -/
theorem unique
    (settles : Settles cost payment policy payer paid outcome)
    (other : Settles cost payment policy otherPayer otherPaid otherOutcome) :
    payer = otherPayer ∧ paid = otherPaid ∧ outcome = otherOutcome := by
  obtain rfl := Except.ok.inj (settles.costRead.symm.trans other.costRead)
  obtain rfl := Except.ok.inj (settles.paymentRead.symm.trans other.paymentRead)
  exact ⟨rfl, rfl, Except.ok.inj (settles.reduced.symm.trans other.reduced)⟩

end Settles

end ManaCost.Settlement
