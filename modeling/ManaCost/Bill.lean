import ManaCost.Cost.Algebra
import ManaCost.Cost.Partition
import ManaCost.Cost.Payment
import ManaCost.Cost.Reader

namespace ManaCost

/-!
# Bills

A bill is a cost together with its standing.  A payable bill holds pure symbols only and can be
paid from; a plain bill cannot, whatever it holds.  Operations on bills hand over a tally that is not
yet polished.  `Bill.collect` asks the symbols of that tally for the standing, and polishes it then;
only `Bill.make` keeps to the standing that it is asked for.
-/

/-- A cost of pure symbols. -/
structure PureCost where
  cost : Cost
  isPure : cost.isPure = true
  deriving DecidableEq

/-- The standing that a bill is asked to have. -/
inductive Standing where
  | plain
  | payable
  deriving DecidableEq, Repr

/-- A cost that is held as payable or not. -/
inductive Bill where
  | plain (cost : Cost)
  | payable (cost : PureCost)
  deriving DecidableEq

namespace Bill

/-- The cost of a bill. -/
def cost : Bill → Cost
  | .plain content => content
  | .payable content => content.cost

/-- The standing of a bill. -/
def standing : Bill → Standing
  | .plain _ => .plain
  | .payable _ => .payable

/-- The name of the type under which diagnostics show a bill. -/
def typeName : Bill → String
  | .plain _ => "Value"
  | .payable _ => "PureValue"

/-- A bill as diagnostics show it. -/
def inspect
    (bill : Bill) :
    String :=
  bill.typeName ++ "(" ++ Text.quoted bill.cost.text ++ ")"

/-- The payable bill of a cost, which may hold no hybrid symbol. -/
def payableOf
    (cost : Cost) :
    Except Fault Bill :=
  if isPure : cost.isPure = true then
    .ok (.payable ⟨cost, isPure⟩)
  else
    let hybrid? := cost.distinctSymbols.find? fun symbol => !symbol.isPure
    .error (.hybridInPayable ((hybrid?.map Symbol.text).getD ""))

/-- The bill of a tally.  It is payable when every symbol of the tally is pure, also those that are
counted zero times. -/
def ofTally
    (tally : Tally) :
    Bill :=
  if pure : tally.isPure = true then
    .payable ⟨.ofTally tally, Cost.isPure_ofTally pure⟩
  else
    .plain (.ofTally tally)

@[simp] theorem cost_ofTally
    (tally : Tally) :
    (ofTally tally).cost = .ofTally tally := by
  unfold ofTally
  split <;> rfl

/-- The bill of a tally with exactly the standing that is asked for. -/
def make
    (tally : Tally) :
    Standing → Except Fault Bill
  | .plain => .ok (.plain (.ofTally tally))
  | .payable => payableOf (.ofTally tally)

/-- The bill of a tally with at least the standing that is asked for.  A plain one is made payable
when the symbols of the tally are pure. -/
def collect
    (tally : Tally) :
    Standing → Except Fault Bill
  | .plain => .ok (ofTally tally)
  | .payable => payableOf (.ofTally tally)

/-- The bill that a text writes. -/
def ofText
    (text : String) :
    Except Fault Bill :=
  match readGroups text.toList 0 none text.toList with
  | .error fault => .error fault
  | .ok symbols => collect (.ofSymbols symbols) .plain

/-- Many bills together. -/
def total
    (bills : List Bill) :
    Standing → Except Fault Bill :=
  collect (Cost.totalTally (bills.map cost))

/-- Two bills together. -/
def add
    (left right : Bill) :
    Bill :=
  ofTally (left.cost.entries.merge right.cost.entries)

/-- A bill with every copy of a variable replaced by another bill. -/
def substitute
    (bill : Bill)
    (name : Variable)
    (replacement : Bill) :
    Except Fault Bill :=
  if replacement.cost.isPure then
    collect (bill.cost.substituteTally name replacement.cost) .plain
  else
    .error (.hybridSubstitution replacement.cost.text)

/-- The same symbols again; a plain bill of pure symbols becomes payable. -/
def copy : Bill → Bill
  | .plain content => ofTally content.entries
  | .payable content => .payable ⟨.ofTally content.cost.entries, Cost.isPure_ofTally content.isPure⟩

/-- What is left of a bill when another is paid out of it, and at least `{0}`. -/
def reduce
    (payer payment : Bill)
    (policy : Policy) :
    Except Fault (Except Shortage Bill) :=
  match payer with
  | .plain _ => .error (.notPayable .reduce)
  | .payable content =>
      if payment.cost.isPure then
        match content.cost.reduceTally payment.cost policy with
        | .error shortage => .ok (.error shortage)
        | .ok tally => do
            let remainder ← make tally .payable
            if remainder.cost.isEmpty then
              return .ok (← make (.ofSymbols [.generic .zero]) .payable)
            else
              return .ok remainder
      else
        .error (.hybridPayment payment.cost.text)

/-- A bill covers another completely. -/
def canPay
    (payer payment : Bill) :
    Except Fault Bool :=
  match payer with
  | .plain _ => .error (.notPayable .canPay)
  | .payable content =>
      ((Bill.payable content).reduce payment .covering).map (·.toBool)

/-- Expanding a bill into its pure alternatives always fails. -/
def expand
    (_bill : Bill) :
    Except Fault Unit :=
  .error .unsupportedExpansion

/-- The parts of two bills: what only the left one has, what both have, what only the right one
has. -/
def parts
    (left right : Bill) :
    Bill × Bill × Bill :=
  let sharedGeneric := left.cost.generic.least right.cost.generic
  (ofTally (Partition.ownTally left.cost right.cost sharedGeneric),
    ofTally (Partition.commonTally left.cost right.cost sharedGeneric),
    ofTally (Partition.ownTally right.cost left.cost sharedGeneric))

end Bill

end ManaCost
