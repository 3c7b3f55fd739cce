import ManaCost.Proofs.Amount.Exact

namespace ManaCost.Amount

/-!
# Splitting amounts

Of two amounts the smaller one is shared, and the larger keeps the difference.  Rounding leaves a
positive difference positive, so that what is shared and what is not can be told from the amounts
themselves.  Exact amounts lose nothing when they are split.
-/

variable {left right : Amount}

/-- Steps are not rounded to nothing. -/
theorem ofSteps_eq_zero_iff
    {count : Nat} :
    ofSteps count = zero ↔ count = 0 := by
  constructor
  · intro nothing
    by_contra some
    have rounded : 2 ^ 0 ≤ roundSteps count := two_pow_le_roundSteps (Nat.pos_of_ne_zero some)
    unfold ofSteps ofQuotient at nothing
    split at nothing
    · have none : roundSteps count = 0 := Amount.finite.inj nothing
      omega
    · exact Amount.noConfusion nothing
  · rintro rfl
    exact ofSteps_zero

theorem steps_least
    (left right : Amount) :
    (left.least right).steps = min left.steps right.steps := by
  unfold least
  split
  · rename_i less
    exact (min_eq_right (isLess_iff.1 less).le).symm
  · rename_i notLess
    exact (min_eq_left (not_lt.1 (mt isLess_iff.2 notLess))).symm

theorem least_comm
    (left right : Amount) :
    left.least right = right.least left := by
  apply steps_injective
  rw [steps_least, steps_least, min_comm]

theorem least_eq_left
    (covered : left.steps ≤ right.steps) :
    left.least right = left :=
  steps_injective ((steps_least left right).trans (min_eq_left covered))

theorem least_eq_right
    (covered : right.steps ≤ left.steps) :
    left.least right = right :=
  steps_injective ((steps_least left right).trans (min_eq_right covered))

/-- Nothing is left of an amount exactly when the other is as large. -/
theorem difference_eq_zero_iff :
    left.difference right = zero ↔ left.steps ≤ right.steps := by
  cases left with
  | finite leftSteps leftDouble =>
      cases right with
      | finite rightSteps rightDouble =>
          rw [difference, ofSteps_eq_zero_iff, steps_finite, steps_finite, Nat.cast_le,
            Nat.sub_eq_zero_iff_le]
      | infinite => simp [difference]
  | infinite =>
      cases right with
      | finite rightSteps rightDouble => simp [difference, zero]
      | infinite => simp [difference]

/-- Taking away what is shared leaves the difference. -/
theorem difference_least
    (left right : Amount) :
    left.difference (left.least right) = left.difference right := by
  rcases le_total left.steps right.steps with covered | covered
  · rw [least_eq_left covered, difference_eq_zero_iff.2 covered, difference_self]
  · rw [least_eq_right covered]

theorem afterPaying_eq_difference
    (finite : left ≠ .infinite) :
    left.afterPaying right = left.difference right := by
  cases left with
  | finite steps isDouble => rfl
  | infinite => exact absurd rfl finite

/-- The difference of exact amounts is not rounded. -/
theorem steps_difference
    (finite : left ≠ .infinite)
    (leftExact : left.IsExact)
    (rightExact : right.IsExact) :
    (left.difference right).steps = left.steps - right.steps := by
  rw [← afterPaying_eq_difference finite,
    steps_afterPaying leftExact (follows_of_isExact rightExact), if_neg finite]

/-- What is left of an exact amount and what is shared make up the amount. -/
theorem steps_difference_add_least
    (leftExact : left.IsExact)
    (rightExact : right.IsExact) :
    (left.difference right).steps + (left.least right).steps = left.steps := by
  rw [steps_least]
  by_cases infinite : left = .infinite
  · subst infinite
    cases right <;> simp [difference]
  · rw [steps_difference infinite leftExact rightExact]
    rcases le_total left.steps right.steps with covered | covered
    · simp [tsub_eq_zero_of_le covered, covered]
    · rw [min_eq_right covered, tsub_add_cancel_of_le covered]

theorem isExact_difference
    (leftExact : left.IsExact)
    (rightExact : right.IsExact) :
    (left.difference right).IsExact := by
  by_cases infinite : left = .infinite
  · subst infinite
    cases right with
    | finite steps isDouble => trivial
    | infinite => exact isExact_zero
  · rw [← afterPaying_eq_difference infinite]
    exact isExact_afterPaying leftExact (follows_of_isExact rightExact)

theorem isExact_least
    (leftExact : left.IsExact)
    (rightExact : right.IsExact) :
    (left.least right).IsExact := by
  unfold least
  split
  · exact rightExact
  · exact leftExact

/-- An exact amount is an exact total. -/
theorem IsExact.isExactTotal
    (exact : left.IsExact) :
    IsExactTotal left.steps := by
  by_cases infinite : left = .infinite
  · exact .inl (steps_eq_top_iff.2 infinite)
  · exact .inr (exact.lt_exactLimit infinite)

end ManaCost.Amount
