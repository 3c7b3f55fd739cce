import ManaCost.Amount.Signed
import ManaCost.Text.Quoted

namespace ManaCost

/-!
# Faults

Every way in which an operation of this library can fail, as its cause.  The wording of a cause is
in `Fault.message` alone.
-/

/-- The two operations that only a payable bill has. -/
inductive PaymentOperation where
  | reduce
  | canPay
  deriving DecidableEq, Repr

/-- The cause of a failure. -/
inductive Fault where
  /-- A text is no symbol. -/
  | malformedSymbol (text : String)
  /-- A text is not made of braced groups; the position counts characters. -/
  | malformedCost (text : String) (position : Nat)
  /-- A generic amount is below zero or not a number. -/
  | negativeGeneric (value : Signed)
  /-- A hybrid symbol stands among the options of another. -/
  | hybridOption (symbol : String)
  /-- A text names no variable. -/
  | unknownVariable (text : String)
  /-- A text names no color. -/
  | unknownColor (text : String)
  /-- A number is not the mask of a color set. -/
  | unknownMask (mask : Int)
  /-- A text names no color set. -/
  | unknownColorSet (text : String)
  /-- A payable bill would hold a hybrid symbol. -/
  | hybridInPayable (symbol : String)
  /-- A plain bill was asked to pay. -/
  | notPayable (operation : PaymentOperation)
  /-- A variable was to be replaced by a cost with hybrid symbols. -/
  | hybridSubstitution (cost : String)
  /-- A cost with hybrid symbols was to be paid. -/
  | hybridPayment (cost : String)
  /-- A cost with hybrid symbols was to be paid from. -/
  | hybridPayer (cost : String)
  /-- A plain bill stands among the options of a family. -/
  | plainFamilyOption (bill : String)
  /-- A family without options was to be factored. -/
  | emptyFamily
  /-- A family of several options was to be factored. -/
  | openFamily
  /-- A cost was to be expanded into a family. -/
  | unsupportedExpansion
  deriving DecidableEq

namespace PaymentOperation

/-- The name of an operation. -/
def name : PaymentOperation → String
  | .reduce => "reduce"
  | .canPay => "can_pay"

end PaymentOperation

namespace Fault

/-- The wording of a cause. -/
def message : Fault → String
  | .malformedSymbol text => "Unrecognized mana symbol: " ++ Text.quoted text
  | .malformedCost text position =>
      "Malformed mana cost " ++ Text.quoted text ++ " at character " ++ toString position
  | .negativeGeneric value => "Generic mana can't be negative: " ++ value.text
  | .hybridOption symbol => "Hybrid options must be pure symbols, got " ++ symbol
  | .unknownVariable text => Text.quoted text ++ " is not a valid Variable"
  | .unknownColor text => "No MTG color associated with " ++ Text.quoted text
  | .unknownMask mask => "No color combination for mask " ++ toString mask
  | .unknownColorSet text => "No color combination named " ++ Text.quoted text
  | .hybridInPayable symbol => "PureValue can't hold hybrid symbol " ++ symbol
  | .notPayable operation =>
      "'Value' object has no attribute " ++ Text.quoted operation.name
  | .hybridSubstitution cost => "Substitution must be a pure value, got " ++ cost
  | .hybridPayment cost => "Can only reduce by a pure value, got " ++ cost
  | .hybridPayer cost => "Can't reduce a cost with hybrid symbols: " ++ cost
  | .plainFamilyOption bill => "Family options must be pure values, got " ++ bill
  | .emptyFamily => "An empty family has no closed form"
  | .openFamily => "Factoring a family of alternative costs isn't implemented"
  | .unsupportedExpansion => "Expanding hybrid costs into a family isn't implemented"

end Fault

end ManaCost
