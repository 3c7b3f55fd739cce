import ManaCost.Amount.Layout

namespace ManaCost

/-!
# Numbers before they are amounts

A text or a sum may give any binary64 number.  Only a number that is at least zero is an amount;
a negative zero is the amount zero, and what is not a number is no amount.
-/

/-- A binary64 number of any sign, or none. -/
inductive Signed where
  | nan
  | of (negative : Bool) (magnitude : Amount)
  deriving DecidableEq

namespace Signed

/-- The number in full. -/
def text : Signed → String
  | .nan => "nan"
  | .of true magnitude => "-" ++ magnitude.text
  | .of false magnitude => magnitude.text

/-- The amount that a number is. -/
def amount? : Signed → Option Amount
  | .nan => none
  | .of negative magnitude =>
      if negative && magnitude.isPositive then none else some magnitude

end Signed

namespace Amount

/-- An amount and a number of either sign, added. -/
def plusSigned
    (amount : Amount)
    (negative : Bool)
    (magnitude : Amount) :
    Signed :=
  if negative then
    if amount.isLess magnitude then
      .of true (magnitude.difference amount)
    else
      .of false (amount.difference magnitude)
  else
    .of false (amount.add magnitude)

end Amount

end ManaCost
