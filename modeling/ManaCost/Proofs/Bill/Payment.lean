import ManaCost.Proofs.Bill.Purity

namespace ManaCost.Bill

/-!
# Payment against its reference

The main statement is `Bill.reduce_eq_reference`: paying exact amounts fails exactly when the policy
is strict and the payer falls short of what is required, and otherwise leaves the difference in a
payable bill.
-/

theorem exists_of_map_eq_ok
    {outcome : Except Shortage Cost}
    {bill : Bill}
    (mapped : outcome.map classify = .ok bill) :
    ∃ left, outcome = .ok left ∧ classify left = bill := by
  cases outcome with
  | error shortage => simp [Except.map] at mapped
  | ok left => exact ⟨left, rfl, Except.ok.inj mapped⟩

/--
A payment comes to nothing exactly when it is strict and its payer falls short, in generic mana or
in a symbol that generic mana may not pay for.  Otherwise it leaves the remainder in a payable bill.
-/
structure IsOutcome
    (payer payment : Cost)
    (policy : Policy)
    (outcome : Except Shortage Bill) :
    Prop where
  fails_iff :
    (∃ shortage, outcome = .error shortage) ↔
      policy.failOnExcess = true ∧
        (payer.generic.steps < payer.required payment policy ∨
          policy.colorPaysGeneric = false ∧
            ∃ symbol : Symbol, symbol.isGeneric = false ∧
              payer.count symbol < payment.count symbol)
  isRemainder : ∀ remainder, outcome = .ok remainder →
    remainder.standing = .payable ∧ Cost.IsRemainder payer payment policy remainder.cost

/--
Paying exact amounts is determined by counts and totals: early stops in the walk over the payment
never show, and a strict payment that goes through leaves what a lenient one leaves.
-/
theorem reduce_eq_reference
    (payer : PureCost)
    (payment : Bill)
    (policy : Policy)
    (pure : payment.cost.isPure = true)
    (payerExact : payer.cost.generic.IsExact)
    (paymentExact : payment.cost.generic.IsExact) :
    ∃ outcome,
      (Bill.payable payer).reduce payment policy = .ok outcome ∧
        IsOutcome payer.cost payment.cost policy outcome ∧
          ∀ remainder, outcome = .ok remainder →
            (Bill.payable payer).reduce payment policy.lenient = .ok (.ok remainder) := by
  have reduced (policy : Policy) := reduce_payable payer payment policy pure
  refine ⟨_, reduced policy, ⟨?_, ?_⟩, ?_⟩
  · rw [← Cost.demand_eq_error_iff pure payerExact paymentExact]
    simp only [← Cost.reduce_eq_error_iff]
    cases payer.cost.reduce payment.cost policy <;> simp [Except.map]
  · intro remainder paid
    obtain ⟨left, leftPaid, rfl⟩ := exists_of_map_eq_ok paid
    obtain ⟨needed, walk, rfl⟩ := Cost.reduce_eq_ok_iff.1 leftPaid
    have isRemainder := Cost.isRemainder_of_follows payerExact
      (Cost.follows_of_demand pure paymentExact walk)
    rw [classify_of_isPure (Cost.isPure_of_isRemainder payer.isPure isRemainder)]
    exact ⟨rfl, isRemainder⟩
  · intro remainder paid
    obtain ⟨left, leftPaid, rfl⟩ := exists_of_map_eq_ok paid
    rw [reduced, Cost.reduce_lenient leftPaid]
    rfl

/-- Two generic mana, two white pips and half a red one. -/
def twoWhiteWhiteHalfRed : PureCost :=
  ⟨.ofSymbols [.generic .two, .pip .white, .pip .white, .half .red], by decide +kernel⟩

/-- Three white pips and a red one. -/
def whiteWhiteWhiteRed : Cost :=
  .ofSymbols [.pip .white, .pip .white, .pip .white, .pip .red]

/-- Half a red pip. -/
def onlyHalfRed : PureCost :=
  ⟨.ofSymbols [.half .red], by decide +kernel⟩

/-- Generic mana takes the place of a white pip and of the red one, for which half a red pip is of no
use. -/
theorem reduce_two_white_white_half_red :
    whiteWhiteWhiteRed.isPure = true ∧
      twoWhiteWhiteHalfRed.cost.generic.IsExact ∧ whiteWhiteWhiteRed.generic.IsExact ∧
        (Bill.payable twoWhiteWhiteHalfRed).reduce (.plain whiteWhiteWhiteRed) .covering =
            .ok (.ok (.payable onlyHalfRed)) ∧
          IsOutcome twoWhiteWhiteHalfRed.cost whiteWhiteWhiteRed .covering
              (.ok (.payable onlyHalfRed)) ∧
            (Bill.payable twoWhiteWhiteHalfRed).reduce (.plain whiteWhiteWhiteRed)
                Policy.covering.lenient =
              .ok (.ok (.payable onlyHalfRed)) := by
  have pure : whiteWhiteWhiteRed.isPure = true := by decide +kernel
  have payerExact : twoWhiteWhiteHalfRed.cost.generic.IsExact := by decide +kernel
  have paymentExact : whiteWhiteWhiteRed.generic.IsExact := by decide +kernel
  have paid : (Bill.payable twoWhiteWhiteHalfRed).reduce (.plain whiteWhiteWhiteRed) .covering =
      .ok (.ok (.payable onlyHalfRed)) := by
    decide +kernel
  obtain ⟨outcome, reduced, isOutcome, lenient⟩ :=
    reduce_eq_reference twoWhiteWhiteHalfRed (.plain whiteWhiteWhiteRed) .covering pure payerExact
      paymentExact
  obtain rfl := Except.ok.inj (reduced.symm.trans paid)
  exact ⟨pure, payerExact, paymentExact, paid, isOutcome, lenient _ rfl⟩

end ManaCost.Bill
