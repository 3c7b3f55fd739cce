import ManaCost.Amount.Basic

namespace ManaCost

/-!
# The decimal that identifies an amount

An amount is written with the fewest digits that read back to it.  The exact value of a finite
amount is a whole number of units of `10 ^ (-1074)`.  For one, two, … seventeen digits the two
neighbours of that value on the decimal grid are tried, and the reader itself decides whether a
neighbour will do.  Of two that will do the nearer is taken, and a tie goes to the even one.
-/

/-- The number `digits * 10 ^ exponent`. -/
structure Decimal where
  digits : Nat
  exponent : Int
  deriving DecidableEq, Repr

namespace Decimal

/-- The amount nearest to a decimal. -/
@[irreducible] def nearest
    (decimal : Decimal) :
    Amount :=
  .ofDecimal decimal.digits decimal.exponent

end Decimal

namespace Amount

/-- How many decimal digits a positive number has. -/
def digitCount
    (number : Nat) :
    Nat :=
  let least := number.log2 * 1233 / 4096
  if number < Nat.pow 10 (least + 1) then least + 1 else least + 2

/-- A finite amount in units of `10 ^ (-1074)`. -/
def exactUnits
    (steps : Nat) :
    Nat :=
  steps * Nat.pow 5 1074

/-- The decimal with given digits when `dropped` of the exact digits are left out. -/
def onGrid
    (dropped digits : Nat) :
    Decimal :=
  ⟨digits, (dropped : Int) - 1074⟩

/-- The decimal with `dropped` of the exact digits left out that reads back to an amount. -/
def candidate?
    (amount : Amount)
    (units dropped : Nat) :
    Option Decimal :=
  let grid := Nat.pow 10 dropped
  let lower := onGrid dropped (units / grid)
  let upper := onGrid dropped (units / grid + 1)
  if lower.nearest = amount then
    if upper.nearest = amount then
      some (onGrid dropped (roundHalfEven units grid))
    else
      some lower
  else if upper.nearest = amount then
    some upper
  else
    none

/-- The decimal of fewest digits that reads back to a finite amount. -/
def shortest
    (steps : Nat)
    (isDouble : IsDouble steps) :
    Decimal :=
  let units := exactUnits steps
  let count := digitCount units
  let found :=
    (List.range 17).findSome? fun index =>
      candidate? (.finite steps isDouble) units (count - (index + 1))
  found.getD ⟨units, -1074⟩

/-- A finite amount rounded to `places` significant digits, with a tie going to the even digit. -/
def significant
    (steps places : Nat) :
    Decimal :=
  let units := exactUnits steps
  let dropped := digitCount units - places
  ⟨roundHalfEven units (Nat.pow 10 dropped), (dropped : Int) - 1074⟩

/-- A finite amount in tenths, with a tie going to the even tenth. -/
def tenths
    (steps : Nat) :
    Nat :=
  roundHalfEven (steps * 10) stepsPerMana

end Amount

end ManaCost
