import ManaCost.Amount.Decimal

namespace ManaCost

/-!
# How amounts are laid out as text

A layout is the list of decisions by which digits become text: where positional writing ends and
whether a whole number keeps its `.0`.  Exponents carry a sign and at least two digits.
-/

/-- The decisions by which digits and a leading exponent become text. -/
structure Layout where
  /-- Leading exponents from `-4` up to this one, exclusive, are written positionally. -/
  positionalBelow : Int
  /-- A whole number written positionally ends in `.0`. -/
  keepsPointZero : Bool

namespace Layout

/-- Amounts in full are written positionally below `10 ^ 16` and show that they need not be whole. -/
def full : Layout where
  positionalBelow := 16
  keepsPointZero := true

/-- Amounts in brief have six digits, are written positionally below `10 ^ 6` and drop the point
when nothing follows it. -/
def brief : Layout where
  positionalBelow := 6
  keepsPointZero := false

/-- As many zeros. -/
def zeros
    (count : Nat) :
    List Char :=
  List.replicate count '0'

/-- Digits with the point after the digit of exponent zero. -/
def positional
    (layout : Layout)
    (digits : List Char)
    (leading : Int) :
    List Char :=
  if leading < 0 then
    '0' :: '.' :: zeros (-leading - 1).toNat ++ digits
  else
    let before := leading.toNat + 1
    if digits.length ≤ before then
      digits ++ zeros (before - digits.length) ++
        (if layout.keepsPointZero then ['.', '0'] else [])
    else
      digits.take before ++ '.' :: digits.drop before

/-- An exponent with its sign and at least two digits. -/
def exponentText
    (exponent : Int) :
    List Char :=
  let digits := Nat.toDigits 10 exponent.natAbs
  (if exponent < 0 then '-' else '+') :: zeros (2 - digits.length) ++ digits

/-- Digits with the point after the first and an exponent behind them. -/
def scientific
    (digits : List Char)
    (leading : Int) :
    List Char :=
  digits.take 1 ++
    (if digits.length ≤ 1 then [] else '.' :: digits.drop 1) ++
    'e' :: exponentText leading

/-- The digits of a number without its trailing zeros. -/
def strippedDigits
    (number : Nat) :
    List Char :=
  ((Nat.toDigits 10 number).reverse.dropWhile (· == '0')).reverse

/-- A positive decimal as a layout writes it. -/
def write
    (layout : Layout)
    (decimal : Decimal) :
    List Char :=
  let digits := strippedDigits decimal.digits
  let leading := decimal.exponent + (Nat.toDigits 10 decimal.digits).length - 1
  if -4 ≤ leading ∧ leading < layout.positionalBelow then
    layout.positional digits leading
  else
    scientific digits leading

end Layout

namespace Amount

/-- An amount in full: the fewest digits that read back to it. -/
def numeral : Amount → List Char
  | .infinite => ['i', 'n', 'f']
  | .finite 0 _ => ['0', '.', '0']
  | .finite (steps + 1) isDouble => Layout.full.write (shortest (steps + 1) isDouble)

/-- An amount in full, as text. -/
def text
    (amount : Amount) :
    String :=
  String.ofList amount.numeral

instance : ToString Amount :=
  ⟨text⟩

/-- An amount in brief: six significant digits at most. -/
def brief : Amount → String
  | .infinite => "inf"
  | .finite 0 _ => "0"
  | .finite (steps + 1) _ => String.ofList (Layout.brief.write (significant (steps + 1) 6))

/-- An amount with one decimal place. -/
def oneDecimal : Amount → String
  | .infinite => "inf"
  | .finite steps _ =>
      String.ofList
        (Nat.toDigits 10 (tenths steps / 10) ++ '.' :: Nat.toDigits 10 (tenths steps % 10))

/-- The least positive amount has one digit. -/
example : (ofSteps 1).text = "5e-324" := by
  decide +kernel

/-- Of two shortest decimals that are equally near, the even one is taken. -/
example : (ofSteps (2 ^ 1049)).text = "2.9802322387695312e-08" := by
  decide +kernel

/-- A whole amount keeps its `.0` in full and loses it in brief. -/
example : (ofNat 1200).text = "1200.0" ∧ (ofNat 1200).brief = "1200" := by
  decide +kernel

end Amount

end ManaCost
