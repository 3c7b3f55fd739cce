import ManaCost.Bill

namespace ManaCost

/-!
# Settlements

A settlement is a payment from one written bill to another, with what came of it.  The payer must be
payable, and the payment pure.
-/

/-- A bill, what is paid out of it, and what came of it. -/
structure Settlement where
  payer : Bill
  payment : Bill
  policy : Policy
  outcome : Except Shortage Bill

namespace Settlement

/-- The settlement of two written bills.  A fault in the text of either comes before a hybrid symbol
in either, and the payer is looked at first. -/
def ofTexts
    (payer payment : String)
    (policy : Policy) :
    Except Fault Settlement := do
  let payer ← Bill.ofText payer
  let payment ← Bill.ofText payment
  match payer with
  | .plain content => throw (.hybridPayer content.text)
  | .payable _ =>
      let outcome ← payer.reduce payment policy
      return ⟨payer, payment, policy, outcome⟩

/-- What remains, when the payment was made. -/
def remainder?
    (settlement : Settlement) :
    Option Bill :=
  settlement.outcome.toOption

/-- The shortage for which the payment failed. -/
def shortage?
    (settlement : Settlement) :
    Option Shortage :=
  match settlement.outcome with
  | .ok _ => none
  | .error shortage => some shortage

/-- What came of a payment, in one line. -/
def describe
    (settlement : Settlement) :
    String :=
  "Reduced " ++ settlement.payer.cost.text ++ " by " ++ settlement.payment.cost.text ++ ": " ++
    (settlement.remainder?.map fun remainder => remainder.cost.text).getD "None"

end Settlement

end ManaCost
