import ManaCost.Proofs.Amount.Rounding

namespace ManaCost.Amount

/-!
# Exact amounts

An amount is measured by its steps, an extended natural number.  Whole numbers of halves below
`2 ^ 52` mana are added, multiplied and subtracted without rounding, and what has reached that
limit stays above it.  `Follows` says that a computed amount is as good as the exact total beside
it; every operation that a payment uses keeps it.
-/

/-- An amount in steps, infinitely many for an infinite amount. -/
def steps : Amount → ℕ∞
  | .finite steps _ => steps
  | .infinite => ⊤

/-- How many steps make half a mana. -/
@[irreducible] def stepsPerHalf : Nat :=
  Nat.pow 2 1073

/-- As many steps as `2 ^ 52` mana. -/
@[irreducible] def exactLimit : Nat :=
  Nat.pow 2 1126

/-- An amount is exact when it is infinite or a whole number of halves below `2 ^ 52` mana. -/
def IsExact : Amount → Prop
  | .finite steps _ => stepsPerHalf ∣ steps ∧ steps < exactLimit
  | .infinite => True

instance : DecidablePred IsExact
  | .finite steps _ => inferInstanceAs (Decidable (stepsPerHalf ∣ steps ∧ steps < exactLimit))
  | .infinite => inferInstanceAs (Decidable True)

/--
A computed amount follows an exact total: either it is that total, which is a whole number of
halves below the limit, or both have reached the limit.
-/
def Follows
    (amount : Amount)
    (total : ℕ∞) :
    Prop :=
  (∃ halves : Nat,
    halves < 2 ^ 53 ∧
      amount.steps = (halves * stepsPerHalf : Nat) ∧ total = (halves * stepsPerHalf : Nat)) ∨
  ((exactLimit : ℕ∞) ≤ amount.steps ∧ (exactLimit : ℕ∞) ≤ total)

/-- A total of amounts is exact when it is infinite or below the limit. -/
def IsExactTotal
    (total : ℕ∞) :
    Prop :=
  total = ⊤ ∨ total < exactLimit

theorem isExact_zero :
    zero.IsExact := by
  decide +kernel

theorem isExact_half :
    half.IsExact := by
  decide +kernel

theorem isExact_one :
    one.IsExact := by
  decide +kernel

@[simp] theorem steps_finite
    (count : Nat)
    (isDouble : IsDouble count) :
    steps (.finite count isDouble) = count :=
  rfl

@[simp] theorem steps_infinite :
    steps .infinite = ⊤ :=
  rfl

@[simp] theorem steps_zero :
    zero.steps = 0 :=
  rfl

theorem steps_half :
    half.steps = stepsPerHalf := by
  unfold stepsPerHalf
  rfl

/-- An amount is determined by its steps. -/
theorem steps_injective
    {left right : Amount}
    (same : left.steps = right.steps) :
    left = right := by
  cases left with
  | finite leftSteps leftDouble =>
      cases right with
      | finite rightSteps rightDouble =>
          have equal : leftSteps = rightSteps := by simpa using same
          subst equal
          rfl
      | infinite => simp at same
  | infinite =>
      cases right with
      | finite rightSteps rightDouble => simp at same
      | infinite => rfl

theorem steps_eq_top_iff
    {amount : Amount} :
    amount.steps = ⊤ ↔ amount = .infinite := by
  rw [← steps_infinite]
  exact ⟨steps_injective, congrArg steps⟩

/-- The order of amounts is that of their steps. -/
theorem isLess_iff
    {left right : Amount} :
    left.isLess right = true ↔ left.steps < right.steps := by
  cases left <;> cases right <;> simp [isLess, Ord.compare, Amount.compare]

theorem isPositive_iff
    {amount : Amount} :
    amount.isPositive = true ↔ amount.steps ≠ 0 := by
  rw [isPositive, isLess_iff, steps_zero, pos_iff_ne_zero]

theorem isPositive_eq_false_iff
    {amount : Amount} :
    amount.isPositive = false ↔ amount = zero := by
  rw [← Bool.not_eq_true, isPositive_iff, not_not]
  exact ⟨fun none => steps_injective (by rw [none, steps_zero]), fun same => by rw [same]; rfl⟩

/-- Halves up to the limit are representable. -/
theorem isDouble_halves
    {halves : Nat}
    (small : halves ≤ 2 ^ 53) :
    IsDouble (halves * stepsPerHalf) := by
  unfold stepsPerHalf
  generalize same : 1073 = shift
  exact isDouble_mul_two_pow small (by omega)

/-- The limit is reached by `2 ^ 53` halves. -/
theorem exactLimit_eq :
    exactLimit = 2 ^ 53 * stepsPerHalf := by
  decide +kernel

theorem halves_lt_exactLimit
    {halves : Nat}
    (few : halves < 2 ^ 53) :
    ((halves * stepsPerHalf : Nat) : ℕ∞) < exactLimit := by
  have positive : 0 < stepsPerHalf := by
    unfold stepsPerHalf
    generalize 1073 = exponent
    exact Nat.two_pow_pos exponent
  rw [exactLimit_eq]
  exact Nat.cast_lt.2 (Nat.mul_lt_mul_of_pos_right few positive)

/-- Halves up to the limit are not rounded. -/
theorem steps_ofSteps_halves
    {halves : Nat}
    (small : halves ≤ 2 ^ 53) :
    (ofSteps (halves * stepsPerHalf)).steps = (halves * stepsPerHalf : Nat) := by
  rw [ofSteps_of_isDouble (isDouble_halves small), steps_finite]

/-- What has reached the limit is not rounded below it. -/
theorem exactLimit_le_ofSteps
    {count : Nat}
    (reached : exactLimit ≤ count) :
    (exactLimit : ℕ∞) ≤ (ofSteps count).steps := by
  have rounded : exactLimit ≤ roundSteps count := by
    unfold exactLimit at reached ⊢
    generalize 1126 = exponent at reached ⊢
    exact two_pow_le_roundSteps reached
  unfold ofSteps ofQuotient
  split
  · exact Nat.cast_le.2 rounded
  · exact le_top

/-- Halves of any number, added up, follow their exact total. -/
theorem follows_ofSteps_halves
    (halves : Nat) :
    (ofSteps (halves * stepsPerHalf)).Follows (halves * stepsPerHalf : Nat) := by
  rcases Nat.lt_or_ge halves (2 ^ 53) with small | large
  · exact .inl ⟨halves, small, steps_ofSteps_halves small.le, rfl⟩
  · have reached : exactLimit ≤ halves * stepsPerHalf := by
      rw [exactLimit_eq]
      exact Nat.mul_le_mul_right _ large
    exact .inr ⟨exactLimit_le_ofSteps reached, Nat.cast_le.2 reached⟩

/-- An amount follows its own steps when it is exact. -/
theorem follows_of_isExact
    {amount : Amount}
    (exact : amount.IsExact) :
    amount.Follows amount.steps := by
  cases amount with
  | infinite => exact .inr ⟨le_top, le_top⟩
  | finite count isDouble =>
      obtain ⟨⟨halves, shape⟩, small⟩ := exact
      rw [Nat.mul_comm] at shape
      have few : halves < 2 ^ 53 := by
        rw [exactLimit_eq, shape] at small
        exact Nat.lt_of_mul_lt_mul_right small
      exact .inl ⟨halves, few, by rw [steps_finite, shape], by rw [steps_finite, shape]⟩

theorem follows_zero :
    zero.Follows 0 :=
  follows_of_isExact isExact_zero

/-- An amount that has reached the limit stays there when another is added. -/
theorem exactLimit_le_add
    {left : Amount}
    (reached : (exactLimit : ℕ∞) ≤ left.steps)
    (right : Amount) :
    (exactLimit : ℕ∞) ≤ (left.add right).steps := by
  cases left with
  | infinite => exact le_top
  | finite leftSteps leftDouble =>
      cases right with
      | infinite => exact le_top
      | finite rightSteps rightDouble =>
          have below : exactLimit ≤ leftSteps := Nat.cast_le.1 reached
          exact exactLimit_le_ofSteps (below.trans (Nat.le_add_right _ _))

theorem eq_finite_of_steps
    {amount : Amount}
    {count : Nat}
    (same : amount.steps = count) :
    ∃ isDouble, amount = .finite count isDouble := by
  cases amount with
  | infinite => exact absurd same.symm (ENat.natCast_ne_top count)
  | finite steps isDouble =>
      obtain rfl : steps = count := Nat.cast_injective same
      exact ⟨isDouble, rfl⟩

/-- A whole number of halves is exact when it lies below the limit. -/
theorem isExact_of_steps_eq
    {amount : Amount}
    {halves : Nat}
    (few : halves < 2 ^ 53)
    (shape : amount.steps = (halves * stepsPerHalf : Nat)) :
    amount.IsExact := by
  obtain ⟨isDouble, rfl⟩ := eq_finite_of_steps shape
  exact ⟨Nat.dvd_mul_left _ _, Nat.cast_lt.1 (halves_lt_exactLimit few)⟩

theorem IsExact.lt_exactLimit
    {amount : Amount}
    (exact : amount.IsExact)
    (finite : amount ≠ .infinite) :
    amount.steps < exactLimit := by
  cases amount with
  | infinite => exact absurd rfl finite
  | finite steps isDouble => exact Nat.cast_lt.2 exact.2

/-- An amount that follows some total follows its own steps. -/
theorem Follows.itself
    {amount : Amount}
    {total : ℕ∞}
    (follows : amount.Follows total) :
    amount.Follows amount.steps := by
  rcases follows with ⟨halves, few, shape, -⟩ | ⟨reached, -⟩
  · exact .inl ⟨halves, few, shape, shape⟩
  · exact .inr ⟨reached, reached⟩

/-- An amount is what it follows, or both have reached the limit. -/
theorem Follows.eq_or_reached
    {amount : Amount}
    {total : ℕ∞}
    (follows : amount.Follows total) :
    amount.steps = total ∨ (exactLimit : ℕ∞) ≤ amount.steps ∧ (exactLimit : ℕ∞) ≤ total := by
  rcases follows with ⟨halves, -, shape, rfl⟩ | reached
  · exact .inl shape
  · exact .inr reached

/-- What follows a total follows any that is equal to it or has reached the limit with it. -/
theorem Follows.trans
    {amount : Amount}
    {total other : ℕ∞}
    (follows : amount.Follows total)
    (same : total = other ∨ (exactLimit : ℕ∞) ≤ total ∧ (exactLimit : ℕ∞) ≤ other) :
    amount.Follows other := by
  rcases same with rfl | ⟨totalReached, otherReached⟩
  · exact follows
  · rcases follows with ⟨halves, few, -, rfl⟩ | ⟨reached, -⟩
    · exact absurd totalReached (halves_lt_exactLimit few).not_ge
    · exact .inr ⟨reached, otherReached⟩

/-- Below the limit an amount is what it follows. -/
theorem Follows.steps_eq
    {amount : Amount}
    {total : ℕ∞}
    (follows : amount.Follows total)
    (below : total < exactLimit) :
    amount.steps = total := by
  rcases follows with ⟨halves, -, shape, rfl⟩ | ⟨-, large⟩
  · exact shape
  · exact absurd below large.not_gt

theorem Follows.isExact
    {amount : Amount}
    {total : ℕ∞}
    (follows : amount.Follows total)
    (below : total < exactLimit) :
    amount.IsExact := by
  rcases follows with ⟨halves, few, shape, -⟩ | ⟨-, large⟩
  · exact isExact_of_steps_eq few shape
  · exact absurd below large.not_gt

/-- An exact amount has at least the total that it follows. -/
theorem Follows.le_steps
    {amount : Amount}
    {total : ℕ∞}
    (follows : amount.Follows total)
    (exact : amount.IsExact) :
    total ≤ amount.steps := by
  rcases follows with ⟨halves, -, shape, rfl⟩ | ⟨reached, -⟩
  · exact shape.ge
  · by_cases infinite : amount = .infinite
    · rw [infinite]
      exact le_top
    · exact absurd (exact.lt_exactLimit infinite) reached.not_gt

/-- In a followed sum, a part may be replaced by what the part follows. -/
theorem Follows.replace
    {sum part : Amount}
    {rest total : ℕ∞}
    (follows : sum.Follows (part.steps + rest))
    (partFollows : part.Follows total) :
    sum.Follows (total + rest) := by
  refine follows.trans ?_
  rcases partFollows.eq_or_reached with same | ⟨partReached, totalReached⟩
  · exact .inl (by rw [same])
  · exact .inr ⟨partReached.trans le_self_add, totalReached.trans le_self_add⟩

/-- An exact amount does not tell a followed part of a sum from what the part follows. -/
theorem IsExact.lt_add_iff
    {available part : Amount}
    {total : ℕ∞}
    (exact : available.IsExact)
    (follows : part.Follows total)
    (rest : ℕ∞) :
    available.steps < part.steps + rest ↔ available.steps < total + rest := by
  rcases follows with ⟨halves, -, shape, rfl⟩ | ⟨reached, large⟩
  · rw [shape]
  · by_cases infinite : available = .infinite
    · simp [infinite]
    · have below := exact.lt_exactLimit infinite
      exact iff_of_true (below.trans_le (reached.trans le_self_add))
        (below.trans_le (large.trans le_self_add))

/-- Sums follow the sums of what is followed. -/
theorem Follows.add
    {left right : Amount}
    {leftTotal rightTotal : ℕ∞}
    (leftFollows : left.Follows leftTotal)
    (rightFollows : right.Follows rightTotal) :
    (left.add right).Follows (leftTotal + rightTotal) := by
  rcases leftFollows with ⟨leftHalves, -, leftShape, rfl⟩ | ⟨leftReached, leftLarge⟩
  · rcases rightFollows with ⟨rightHalves, -, rightShape, rfl⟩ | ⟨rightReached, rightLarge⟩
    · obtain ⟨leftDouble, rfl⟩ := eq_finite_of_steps leftShape
      obtain ⟨rightDouble, rfl⟩ := eq_finite_of_steps rightShape
      have together := follows_ofSteps_halves (leftHalves + rightHalves)
      rw [Nat.add_mul, Nat.cast_add] at together
      exact together
    · refine .inr ⟨?_, rightLarge.trans le_add_self⟩
      rw [add_comm]
      exact exactLimit_le_add rightReached left
  · exact .inr ⟨exactLimit_le_add leftReached right, leftLarge.trans le_self_add⟩

theorem scale_zero
    (amount : Amount) :
    amount.scale 0 = zero := by
  cases amount with
  | infinite => rfl
  | finite steps isDouble =>
      rw [scale, roundSteps_of_le (by omega), Nat.mul_zero, ofSteps_zero]

theorem scale_eq_infinite
    {amount : Amount}
    {count : Nat}
    (unbounded : amount.steps * count = ⊤) :
    amount.scale count = .infinite := by
  cases amount with
  | finite steps isDouble =>
      rw [steps_finite, ← Nat.cast_mul] at unbounded
      exact absurd unbounded (ENat.natCast_ne_top _)
  | infinite =>
      cases count with
      | zero => simp at unbounded
      | succ rest => rfl

theorem sum_eq_infinite
    {amounts : List Amount}
    (member : .infinite ∈ amounts) :
    sum amounts = .infinite := by
  obtain ⟨before, after, rfl⟩ := List.append_of_mem member
  have reached : (before.foldl add zero).add .infinite = .infinite := by
    cases before.foldl add zero <;> rfl
  have stays (amounts : List Amount) : amounts.foldl add .infinite = .infinite := by
    induction amounts with
    | nil => rfl
    | cons amount rest inductionHypothesis => exact inductionHypothesis
  rw [sum, List.foldl_append, List.foldl_cons, reached, stays]

/-- Multiples of halves follow their exact total, although the count is rounded too. -/
theorem follows_scale_halves
    {halves : Nat}
    (isDouble : IsDouble (halves * stepsPerHalf))
    (count : Nat) :
    (scale (.finite (halves * stepsPerHalf) isDouble) count).Follows
      (halves * stepsPerHalf * count : Nat) := by
  rw [scale]
  rcases Nat.lt_or_ge (2 ^ 53) count with large | small
  · -- From here on the rounded count and the count differ, but both products reach the limit.
    rcases Nat.eq_zero_or_pos halves with rfl | some
    · rw [Nat.zero_mul, Nat.zero_mul, Nat.zero_mul, ofSteps_zero, Nat.cast_zero]
      exact follows_zero
    · have rounded : 2 ^ 53 ≤ roundSteps count := two_pow_le_roundSteps large.le
      have reaches {factor : Nat} (many : 2 ^ 53 ≤ factor) :
          exactLimit ≤ halves * stepsPerHalf * factor := by
        calc
          exactLimit = 1 * stepsPerHalf * 2 ^ 53 := by
            rw [exactLimit_eq, Nat.one_mul, Nat.mul_comm]
          _ ≤ halves * stepsPerHalf * factor :=
            Nat.mul_le_mul (Nat.mul_le_mul_right _ some) many
      exact .inr ⟨exactLimit_le_ofSteps (reaches rounded), Nat.cast_le.2 (reaches large.le)⟩
  · have together := follows_ofSteps_halves (halves * count)
    rw [roundSteps_of_le small]
    rwa [Nat.mul_right_comm] at together

/-- An amount that has reached the limit stays there when it is multiplied. -/
theorem exactLimit_le_scale
    {amount : Amount}
    {count : Nat}
    (reached : (exactLimit : ℕ∞) ≤ amount.steps)
    (positive : 0 < count) :
    (exactLimit : ℕ∞) ≤ (amount.scale count).steps := by
  cases amount with
  | infinite =>
      obtain ⟨rest, rfl⟩ : ∃ rest, count = rest + 1 := ⟨count - 1, by omega⟩
      exact le_top
  | finite steps isDouble =>
      have below : exactLimit ≤ steps := Nat.cast_le.1 reached
      have rounded : 2 ^ 0 ≤ roundSteps count := two_pow_le_roundSteps positive
      exact exactLimit_le_ofSteps (below.trans (Nat.le_mul_of_pos_right steps rounded))

/-- Multiples follow the exact multiples of what is exact or has reached the limit. -/
theorem follows_scale
    {amount : Amount}
    (whole : amount.Follows amount.steps)
    (count : Nat) :
    (amount.scale count).Follows (amount.steps * count) := by
  rcases whole with ⟨halves, -, shape, -⟩ | ⟨reached, -⟩
  · obtain ⟨isDouble, rfl⟩ := eq_finite_of_steps shape
    rw [steps_finite, ← Nat.cast_mul]
    exact follows_scale_halves isDouble count
  · rcases Nat.eq_zero_or_pos count with rfl | positive
    · rw [scale_zero, Nat.cast_zero, mul_zero]
      exact follows_zero
    · have grown : amount.steps ≤ amount.steps * count :=
        le_mul_of_one_le_right' (Nat.one_le_cast.2 positive)
      exact .inr ⟨exactLimit_le_scale reached positive, reached.trans grown⟩

/-- Below the limit a followed total is compared as it is. -/
theorem isLess_iff_of_follows
    {available needed : Amount}
    {total : ℕ∞}
    (exact : available.IsExact)
    (follows : needed.Follows total) :
    available.isLess needed = true ↔ available.steps < total := by
  rw [isLess_iff]
  rcases follows with ⟨halves, -, shape, rfl⟩ | ⟨reached, large⟩
  · rw [shape]
  · cases available with
    | infinite => simp
    | finite steps isDouble =>
        have below : (steps : ℕ∞) < exactLimit := Nat.cast_lt.2 exact.2
        exact ⟨fun _ => below.trans_le large, fun _ => below.trans_le reached⟩

theorem zero_afterPaying
    (needed : Amount) :
    zero.afterPaying needed = zero := by
  cases needed with
  | infinite => rfl
  | finite steps isDouble =>
      change ofSteps (0 - steps) = zero
      rw [Nat.zero_sub, ofSteps_zero]

/-- What paying leaves of an exact amount is exact. -/
theorem steps_afterPaying
    {available needed : Amount}
    {total : ℕ∞}
    (exact : available.IsExact)
    (follows : needed.Follows total) :
    (available.afterPaying needed).steps =
      if available = .infinite then ⊤ else available.steps - total := by
  cases available with
  | infinite => rfl
  | finite steps isDouble =>
      rw [if_neg (by simp), steps_finite]
      obtain ⟨⟨halves, rfl⟩, below⟩ := exact
      rcases follows with ⟨neededHalves, few, shape, rfl⟩ | ⟨reached, large⟩
      · obtain ⟨neededDouble, rfl⟩ := eq_finite_of_steps shape
        have small : halves - neededHalves ≤ 2 ^ 53 := by
          rw [exactLimit_eq, Nat.mul_comm] at below
          have := Nat.lt_of_mul_lt_mul_right below
          omega
        have remaining := steps_ofSteps_halves small
        rw [Nat.sub_mul, Nat.mul_comm halves, ENat.natCast_sub] at remaining
        exact remaining
      · have nothing : ((stepsPerHalf * halves : Nat) : ℕ∞) - total = 0 :=
          tsub_eq_zero_of_le ((Nat.cast_le.2 below.le).trans large)
        rw [nothing]
        cases needed with
        | infinite => rfl
        | finite neededSteps neededDouble =>
            have covered : stepsPerHalf * halves ≤ neededSteps :=
              below.le.trans (Nat.cast_le.1 reached)
            change (ofSteps (stepsPerHalf * halves - neededSteps)).steps = 0
            rw [Nat.sub_eq_zero_of_le covered, ofSteps_zero, steps_zero]

theorem isExact_afterPaying
    {available needed : Amount}
    {total : ℕ∞}
    (exact : available.IsExact)
    (follows : needed.Follows total) :
    (available.afterPaying needed).IsExact := by
  cases available with
  | infinite => trivial
  | finite steps isDouble =>
      have left := steps_afterPaying exact follows
      rw [if_neg (by simp)] at left
      rcases follows_of_isExact exact with ⟨halves, few, shape, -⟩ | ⟨reached, -⟩
      · rcases follows with ⟨neededHalves, -, -, rfl⟩ | ⟨-, large⟩
        · rw [shape, ← ENat.natCast_sub, ← Nat.sub_mul] at left
          exact isExact_of_steps_eq ((Nat.sub_le _ _).trans_lt few) left
        · have covered := (exact.lt_exactLimit (by simp)).le.trans large
          rw [tsub_eq_zero_of_le covered, ← steps_zero] at left
          rw [steps_injective left]
          exact isExact_zero
      · exact absurd (exact.lt_exactLimit (by simp)) reached.not_gt

end ManaCost.Amount
