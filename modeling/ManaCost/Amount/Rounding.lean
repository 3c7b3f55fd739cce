namespace ManaCost.Amount

/-!
# Rounding to binary64

Amounts are measured in steps of `2 ^ (-1074)`, the least positive binary64 value, so that every
finite amount is a whole number of steps.  A number of steps is representable when its spacing
divides it: below `2 ^ 53` every number is, and above that only 53 leading binary digits may be
used.  Rounding takes the nearest representable number and sends ties to the even neighbour.

The main statement is `isDouble_of_roundQuotient`: what rounding returns is representable, unless
it is too large.
-/

/-- The whole number nearest to a quotient; an exact tie goes to the even neighbour. -/
def roundHalfEven
    (numerator denominator : Nat) :
    Nat :=
  let quotient := numerator / denominator
  let remainder := numerator % denominator
  if 2 * remainder < denominator then
    quotient
  else if denominator < 2 * remainder then
    quotient + 1
  else
    quotient + quotient % 2

/-- The distance between neighbouring representable numbers of steps around `steps`. -/
def spacing
    (steps : Nat) :
    Nat :=
  Nat.pow 2 (steps.log2 - 52)

/-- The least power of two that no finite amount reaches, in steps. -/
def overflowSteps : Nat :=
  Nat.pow 2 2098

/-- A number of steps is a finite binary64 value. -/
def IsDouble
    (steps : Nat) :
    Prop :=
  spacing steps ∣ steps ∧ steps < overflowSteps

instance (steps : Nat) : Decidable (IsDouble steps) :=
  inferInstanceAs (Decidable (_ ∧ _))

/-- The representable number of steps nearest to a quotient, however large. -/
def roundQuotient
    (numerator denominator : Nat) :
    Nat :=
  let unit := spacing (numerator / denominator)
  roundHalfEven numerator (denominator * unit) * unit

/-- The representable whole number nearest to a whole number. -/
def roundSteps
    (steps : Nat) :
    Nat :=
  roundQuotient steps 1

/-- The rounded quotient exceeds the floor by at most one. -/
theorem roundHalfEven_le
    (numerator denominator : Nat) :
    roundHalfEven numerator denominator ≤ numerator / denominator + 1 := by
  unfold roundHalfEven
  dsimp only
  split
  · omega
  · split <;> omega

/-- A number with at most 53 binary digits before its trailing zeros is divided by its spacing. -/
theorem spacing_dvd
    (significand shift : Nat)
    (small : significand ≤ Nat.pow 2 53) :
    spacing (significand * Nat.pow 2 shift) ∣ significand * Nat.pow 2 shift := by
  simp only [spacing, Nat.pow_eq] at small ⊢
  rcases Nat.eq_zero_or_pos significand with rfl | positive
  · simp
  · rcases Nat.lt_or_eq_of_le small with below | rfl
    · have product_positive : significand * 2 ^ shift ≠ 0 := by
        have := Nat.two_pow_pos shift
        exact Nat.mul_ne_zero (by omega) (by omega)
      have bound : significand * 2 ^ shift < 2 ^ (53 + shift) := by
        rw [Nat.pow_add]
        exact Nat.mul_lt_mul_of_pos_right below (Nat.two_pow_pos shift)
      have log_bound := (Nat.log2_lt product_positive).2 bound
      exact Nat.dvd_trans (Nat.pow_dvd_pow 2 (by omega)) (Nat.dvd_mul_left _ _)
    · rw [← Nat.pow_add, Nat.log2_two_pow]
      exact Nat.pow_dvd_pow 2 (by omega)

/-- A quotient divided by its own spacing is below `2 ^ 53`. -/
theorem div_spacing_lt
    (steps : Nat) :
    steps / spacing steps < Nat.pow 2 53 := by
  simp only [spacing, Nat.pow_eq]
  rw [Nat.div_lt_iff_lt_mul (Nat.two_pow_pos _), ← Nat.pow_add]
  exact Nat.lt_of_lt_of_le Nat.lt_log2_self (Nat.pow_le_pow_right (by decide) (by omega))

/-- A rounded quotient has at most 53 binary digits before its trailing zeros. -/
theorem roundQuotient_eq
    (numerator denominator : Nat) :
    ∃ significand shift,
      significand ≤ Nat.pow 2 53 ∧
        roundQuotient numerator denominator = significand * Nat.pow 2 shift := by
  refine ⟨_, (numerator / denominator).log2 - 52, ?_, rfl⟩
  have bound := roundHalfEven_le numerator (denominator * spacing (numerator / denominator))
  rw [← Nat.div_div_eq_div_mul] at bound
  have small := div_spacing_lt (numerator / denominator)
  exact Nat.le_trans bound small

/-- What rounding returns is a finite binary64 value, unless it is too large. -/
theorem isDouble_of_roundQuotient
    (numerator denominator : Nat)
    (finite : roundQuotient numerator denominator < overflowSteps) :
    IsDouble (roundQuotient numerator denominator) := by
  refine ⟨?_, finite⟩
  obtain ⟨significand, shift, small, shape⟩ := roundQuotient_eq numerator denominator
  rw [shape]
  exact spacing_dvd significand shift small

end ManaCost.Amount
