import ManaCost.Amount.Rounding

namespace ManaCost

/-!
# Amounts of mana

An amount is a non-negative binary64 number: a finite number of steps of `2 ^ (-1074)`, or
infinitely much.  Every operation computes exactly on steps and rounds once.  Amounts are never
negative and always numbers, so their order is total and equality is identity.
-/

/-- A non-negative binary64 number. -/
inductive Amount where
  | finite (steps : Nat) (isDouble : Amount.IsDouble steps)
  | infinite
  deriving DecidableEq

namespace Amount

/-- The amount nearest to a quotient of steps, infinite when that is too large. -/
def ofQuotient
    (numerator denominator : Nat) :
    Amount :=
  if small : roundQuotient numerator denominator < overflowSteps then
    .finite (roundQuotient numerator denominator)
      (isDouble_of_roundQuotient numerator denominator small)
  else
    .infinite

/-- The amount nearest to a number of steps. -/
def ofSteps
    (steps : Nat) :
    Amount :=
  ofQuotient steps 1

/-- How many steps make one mana. -/
def stepsPerMana : Nat :=
  Nat.pow 2 1074

/-- The amount nearest to a whole number. -/
def ofNat
    (whole : Nat) :
    Amount :=
  ofSteps (whole * stepsPerMana)

/-- The amount nearest to `mantissa * 10 ^ exponent`. -/
def ofDecimal
    (mantissa : Nat)
    (exponent : Int) :
    Amount :=
  ofQuotient
    (mantissa * Nat.pow 10 exponent.toNat * stepsPerMana)
    (Nat.pow 10 (-exponent).toNat)

/-- No mana. -/
def zero : Amount :=
  .finite 0 (by decide +kernel)

/-- Half a mana. -/
def half : Amount :=
  .finite (Nat.pow 2 1073) (by decide +kernel)

/-- One mana. -/
def one : Amount :=
  .finite (Nat.pow 2 1074) (by decide +kernel)

/-- Two mana. -/
def two : Amount :=
  .finite (Nat.pow 2 1075) (by decide +kernel)

instance : Inhabited Amount :=
  ⟨zero⟩

/-- Two amounts together. -/
def add : Amount → Amount → Amount
  | .finite left _, .finite right _ => ofSteps (left + right)
  | _, _ => .infinite

instance : Add Amount :=
  ⟨add⟩

/-- One amount `count` times; the count is rounded before the product is.  Counts are taken to be
below `2 ^ 1024`: no binary64 number is that large, and here such a count makes a positive amount
infinite. -/
def scale : Amount → Nat → Amount
  | .finite steps _, count => ofSteps (steps * roundSteps count)
  | .infinite, 0 => zero
  | .infinite, _ + 1 => .infinite

/-- What is left of an amount when another is taken away, and nothing when the other is larger.
Equal amounts leave nothing, infinite ones too. -/
def difference : Amount → Amount → Amount
  | .finite left _, .finite right _ => ofSteps (left - right)
  | .finite _ _, .infinite => zero
  | .infinite, .finite _ _ => .infinite
  | .infinite, .infinite => zero

/-- What paying leaves: an infinite amount is never used up. -/
def afterPaying : Amount → Amount → Amount
  | .infinite, _ => .infinite
  | available, needed => available.difference needed

/-- The order of amounts by size. -/
protected def compare : Amount → Amount → Ordering
  | .finite left _, .finite right _ => Ord.compare left right
  | .finite _ _, .infinite => .lt
  | .infinite, .finite _ _ => .gt
  | .infinite, .infinite => .eq

instance : Ord Amount :=
  ⟨Amount.compare⟩

/-- The left amount is smaller. -/
def isLess
    (left right : Amount) :
    Bool :=
  (compare left right).isLT

/-- The amount is more than nothing. -/
def isPositive
    (amount : Amount) :
    Bool :=
  zero.isLess amount

/-- The smaller of two amounts. -/
def least
    (left right : Amount) :
    Amount :=
  if right.isLess left then right else left

/-- The larger of two amounts. -/
def greatest
    (left right : Amount) :
    Amount :=
  if left.isLess right then right else left

/-- Amounts added up from left to right.  Every sum is rounded by itself, and what rounding loses is
not made up for later. -/
def sum
    (amounts : List Amount) :
    Amount :=
  amounts.foldl add zero

/-- No steps are no mana. -/
theorem ofSteps_zero :
    ofSteps 0 = zero := by
  decide +kernel

/-- Taking any amount from itself leaves nothing. -/
theorem difference_self
    (amount : Amount) :
    amount.difference amount = zero := by
  cases amount with
  | finite steps isDouble => simp only [difference, Nat.sub_self, ofSteps_zero]
  | infinite => rfl

/-- Adding does not depend on which amount comes first. -/
theorem add_comm
    (left right : Amount) :
    left.add right = right.add left := by
  cases left <;> cases right <;> simp only [add, Nat.add_comm]

end Amount

end ManaCost
