import Mathlib
import ManaCost.Amount.Basic

namespace ManaCost.Amount

/-!
# Laws of rounding

Rounding leaves representable numbers alone, depends on a quotient only through its value, and does
not cross a power of two from above.  These three laws are all that later modules use of it.
-/

theorem spacing_eq
    (steps : Nat) :
    spacing steps = 2 ^ (steps.log2 - 52) :=
  rfl

theorem spacing_pos
    (steps : Nat) :
    0 < spacing steps :=
  Nat.two_pow_pos _

theorem two_pow_lt_overflowSteps
    {exponent : Nat}
    (fits : exponent < 2098) :
    2 ^ exponent < overflowSteps := by
  unfold overflowSteps
  generalize 2098 = bound at fits ⊢
  exact Nat.pow_lt_pow_right Nat.one_lt_two fits

/-- A number with at most 53 binary digits before its trailing zeros is a double, unless it is too
large. -/
theorem isDouble_mul_two_pow
    {significand shift : Nat}
    (small : significand ≤ 2 ^ 53)
    (fits : 53 + shift < 2098) :
    IsDouble (significand * 2 ^ shift) := by
  refine ⟨spacing_dvd significand shift small, ?_⟩
  calc
    significand * 2 ^ shift ≤ 2 ^ 53 * 2 ^ shift := Nat.mul_le_mul_right _ small
    _ = 2 ^ (53 + shift) := (pow_add 2 53 shift).symm
    _ < overflowSteps := two_pow_lt_overflowSteps fits

/-- Rounding to a whole number does not fall below the floor. -/
theorem le_roundHalfEven
    (numerator denominator : Nat) :
    numerator / denominator ≤ roundHalfEven numerator denominator := by
  unfold roundHalfEven
  dsimp only
  split
  · exact Nat.le_refl _
  · split <;> omega

/-- A whole quotient is its own rounding. -/
theorem roundHalfEven_mul
    (quotient : Nat)
    {denominator : Nat}
    (positive : 0 < denominator) :
    roundHalfEven (quotient * denominator) denominator = quotient := by
  simp [roundHalfEven, Nat.mul_div_cancel _ positive, positive]

/-- Rounding to a whole number does not see a common factor. -/
theorem roundHalfEven_scale
    {factor : Nat}
    (positive : 0 < factor)
    (numerator denominator : Nat) :
    roundHalfEven (factor * numerator) (factor * denominator) =
      roundHalfEven numerator denominator := by
  have doubled (remainder : Nat) : 2 * (factor * remainder) = factor * (2 * remainder) :=
    Nat.mul_left_comm 2 factor remainder
  simp only [roundHalfEven, Nat.mul_div_mul_left _ _ positive, Nat.mul_mod_mul_left, doubled,
    Nat.mul_lt_mul_left positive]

/-- A representable quotient is its own rounding. -/
theorem roundQuotient_mul
    {steps denominator : Nat}
    (positive : 0 < denominator)
    (representable : spacing steps ∣ steps) :
    roundQuotient (steps * denominator) denominator = steps := by
  obtain ⟨significand, shape⟩ := representable
  have unitPositive : 0 < denominator * spacing steps :=
    Nat.mul_pos positive (spacing_pos steps)
  have product : steps * denominator = significand * (denominator * spacing steps) := by
    calc
      steps * denominator = spacing steps * significand * denominator := by rw [← shape]
      _ = significand * (denominator * spacing steps) := by
        rw [Nat.mul_comm (spacing steps), Nat.mul_assoc, Nat.mul_comm (spacing steps)]
  unfold roundQuotient
  simp only [Nat.mul_div_cancel _ positive]
  rw [product, roundHalfEven_mul significand unitPositive, Nat.mul_comm, ← shape]

/-- A representable number of steps is its own rounding. -/
theorem roundSteps_of_dvd
    {steps : Nat}
    (representable : spacing steps ∣ steps) :
    roundSteps steps = steps := by
  have rounded := roundQuotient_mul Nat.one_pos representable
  rwa [Nat.mul_one] at rounded

/-- Rounding does not see a common factor of a quotient. -/
theorem roundQuotient_scale
    {factor : Nat}
    (positive : 0 < factor)
    (numerator denominator : Nat) :
    roundQuotient (factor * numerator) (factor * denominator) =
      roundQuotient numerator denominator := by
  unfold roundQuotient
  simp only [Nat.mul_div_mul_left _ _ positive, Nat.mul_assoc, roundHalfEven_scale positive]

/-- A quotient that reaches a power of two does so after rounding too. -/
theorem two_pow_le_roundQuotient
    {exponent numerator denominator : Nat}
    (reached : 2 ^ exponent ≤ numerator / denominator) :
    2 ^ exponent ≤ roundQuotient numerator denominator := by
  let quotient := numerator / denominator
  let unit := spacing quotient
  have quotientNeZero : quotient ≠ 0 :=
    Nat.ne_of_gt (Nat.lt_of_lt_of_le (Nat.two_pow_pos exponent) reached)
  have leading : 2 ^ quotient.log2 ≤ quotient :=
    Nat.log2_self_le quotientNeZero
  have floor : quotient / unit * unit ≤ roundQuotient numerator denominator := by
    have below := le_roundHalfEven numerator (denominator * unit)
    rw [← Nat.div_div_eq_div_mul] at below
    exact Nat.mul_le_mul_right unit below
  -- The leading power of two is a multiple of the spacing, so the floor keeps it.
  obtain ⟨cofactor, shape⟩ : unit ∣ 2 ^ quotient.log2 :=
    Nat.pow_dvd_pow 2 (Nat.sub_le _ _)
  have kept : 2 ^ quotient.log2 ≤ quotient / unit * unit := by
    rw [shape, Nat.mul_comm unit]
    apply Nat.mul_le_mul_right
    rw [Nat.le_div_iff_mul_le (spacing_pos quotient), Nat.mul_comm]
    rwa [shape] at leading
  calc
    2 ^ exponent ≤ 2 ^ quotient.log2 :=
      Nat.pow_le_pow_right (by decide) ((Nat.le_log2 quotientNeZero).2 reached)
    _ ≤ quotient / unit * unit := kept
    _ ≤ roundQuotient numerator denominator := floor

/-- A number of steps that reaches a power of two does so after rounding too. -/
theorem two_pow_le_roundSteps
    {exponent steps : Nat}
    (reached : 2 ^ exponent ≤ steps) :
    2 ^ exponent ≤ roundSteps steps :=
  two_pow_le_roundQuotient (by rwa [Nat.div_one])

/-- A large representable number of steps has as many trailing zeros as its size leaves it. -/
theorem two_pow_dvd_of_le
    (shift : Nat)
    {steps : Nat}
    (representable : spacing steps ∣ steps)
    (large : 2 ^ (shift + 52) ≤ steps) :
    2 ^ shift ∣ steps := by
  have positive : steps ≠ 0 := (Nat.two_pow_pos _).trans_le large |>.ne'
  have bits : shift + 52 ≤ steps.log2 := (Nat.le_log2 positive).2 large
  rw [spacing_eq] at representable
  exact Nat.dvd_trans (Nat.pow_dvd_pow 2 (by omega)) representable

/-- Whole numbers of 53 binary digits are not rounded. -/
theorem roundSteps_of_le
    {count : Nat}
    (small : count ≤ 2 ^ 53) :
    roundSteps count = count := by
  have representable := spacing_dvd count 0 small
  rw [Nat.pow_eq, Nat.pow_zero, Nat.mul_one] at representable
  exact roundSteps_of_dvd representable

/-- The amount nearest to a representable quotient is that quotient. -/
theorem ofQuotient_mul
    {steps denominator : Nat}
    (positive : 0 < denominator)
    (isDouble : IsDouble steps) :
    ofQuotient (steps * denominator) denominator = .finite steps isDouble := by
  unfold ofQuotient
  simp only [roundQuotient_mul positive isDouble.1, isDouble.2, ↓reduceDIte]

/-- The amount nearest to a representable number of steps has as many. -/
theorem ofSteps_of_isDouble
    {steps : Nat}
    (isDouble : IsDouble steps) :
    ofSteps steps = .finite steps isDouble := by
  have nearest := ofQuotient_mul Nat.one_pos isDouble
  rwa [Nat.mul_one] at nearest

/-- Equal quotients have one nearest amount. -/
theorem ofQuotient_eq_of_mul_eq
    {left leftDenominator right rightDenominator : Nat}
    (leftPositive : 0 < leftDenominator)
    (rightPositive : 0 < rightDenominator)
    (same : left * rightDenominator = right * leftDenominator) :
    ofQuotient left leftDenominator = ofQuotient right rightDenominator := by
  have rounded :
      roundQuotient left leftDenominator = roundQuotient right rightDenominator := by
    rw [← roundQuotient_scale rightPositive left, ← roundQuotient_scale leftPositive right,
      Nat.mul_comm rightDenominator left, same, Nat.mul_comm right,
      Nat.mul_comm rightDenominator leftDenominator]
  unfold ofQuotient
  simp only [rounded]

theorem zero_add
    (amount : Amount) :
    zero.add amount = amount := by
  cases amount with
  | infinite => rfl
  | finite steps isDouble =>
      change ofSteps (0 + steps) = _
      rw [Nat.zero_add, ofSteps_of_isDouble isDouble]

theorem scale_one
    (amount : Amount) :
    amount.scale 1 = amount := by
  cases amount with
  | infinite => rfl
  | finite steps isDouble =>
      rw [scale, roundSteps_of_le (by omega), Nat.mul_one, ofSteps_of_isDouble isDouble]

end ManaCost.Amount
