import ManaCost.Cost.Basic

namespace ManaCost

/-!
# Paying one cost out of another

A payer pays each symbol of a payment with its own copies.  What it lacks can be paid with generic
mana, if the policy allows, and what generic mana cannot cover makes the payment fail, if the policy
is strict.  A strict payment stops at the first shortage, in the order of the payment's symbols.
-/

/-- How a payment is made. -/
structure Policy where
  /-- Generic mana pays for colored symbols that the payer lacks. -/
  colorPaysGeneric : Bool
  /-- The payment fails when the payer cannot cover it. -/
  failOnExcess : Bool
  deriving DecidableEq, Repr

namespace Policy

/-- Generic mana pays for what is lacking, and nothing may be left unpaid. -/
def covering : Policy where
  colorPaysGeneric := true
  failOnExcess := true

end Policy

/-- Why a strict payment fails. -/
inductive Shortage where
  /-- Some copies of a symbol are missing, and generic mana may not pay for them. -/
  | lacks (copies : Nat) (symbol : Symbol)
  /-- More generic mana is needed than there is. -/
  | generic (needed available : Amount)
  deriving DecidableEq

namespace Shortage

/-- The wording of a shortage. -/
def message
    (payer payment : Cost) :
    Shortage → String
  | .lacks copies symbol =>
      payer.text ++ " lacks " ++ toString copies ++ " x " ++ symbol.text ++ " to pay " ++ payment.text
  | .generic needed available =>
      payer.text ++ " can't pay " ++ payment.text ++ ": needs " ++ needed.text ++ " generic, has " ++
        available.text

end Shortage

namespace Cost

/-- The generic mana that one more symbol of a payment needs. -/
def demandOf
    (payer : Cost)
    (policy : Policy)
    (needed : Amount)
    (symbol : Symbol)
    (copies : Nat) :
    Except Shortage Amount :=
  match symbol.genericAmount? with
  | some amount => .ok (needed.add (amount.scale copies))
  | none =>
      let missing := copies - payer.count symbol
      if missing = 0 then
        .ok needed
      else if policy.colorPaysGeneric then
        .ok (needed.add (symbol.manaValue.scale missing))
      else if policy.failOnExcess then
        .error (.lacks missing symbol)
      else
        .ok needed

/-- The generic mana that the symbols of a payment need, beside what is needed already. -/
def demandFrom
    (payer : Cost)
    (policy : Policy)
    (needed : Amount) :
    Tally → Except Shortage Amount
  | [] => .ok needed
  | entry :: rest =>
      match payer.demandOf policy needed entry.1 entry.2 with
      | .error shortage => .error shortage
      | .ok needed =>
          if policy.failOnExcess && payer.generic.isLess needed then
            .error (.generic needed payer.generic)
          else
            payer.demandFrom policy needed rest

/-- The generic mana that a payment needs. -/
def demand
    (payer payment : Cost)
    (policy : Policy) :
    Except Shortage Amount :=
  payer.demandFrom policy .zero payment.entries

/-- The symbols that a payer keeps. -/
def kept
    (payer payment : Cost) :
    Tally :=
  payer.entries.nonGeneric.map fun entry => (entry.1, entry.2 - payment.count entry.1)

/-- The generic mana that a payer keeps.  A payer of `{0}` keeps that. -/
def keptGeneric
    (payer : Cost)
    (needed : Amount) :
    Tally :=
  payer.entries.filterMap fun entry =>
    entry.1.genericAmount?.map fun _ => (.generic (payer.generic.afterPaying needed), 1)

/-- The counts that are left of a cost when another is paid out of it, not yet polished. -/
def reduceTally
    (payer payment : Cost)
    (policy : Policy) :
    Except Shortage Tally :=
  match payer.demand payment policy with
  | .error shortage => .error shortage
  | .ok needed => .ok (payer.kept payment ++ payer.keptGeneric needed)

/-- What is left of a cost when another is paid out of it, and at least `{0}`. -/
def reduce
    (payer payment : Cost)
    (policy : Policy) :
    Except Shortage Cost :=
  match payer.reduceTally payment policy with
  | .error shortage => .error shortage
  | .ok tally =>
      let remainder := ofTally tally
      .ok (if remainder.isEmpty then free else remainder)

/-- A cost covers another completely. -/
def canPay
    (payer payment : Cost) :
    Bool :=
  (payer.reduce payment .covering).toBool

end Cost

end ManaCost
