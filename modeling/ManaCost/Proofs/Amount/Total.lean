import ManaCost.Proofs.Amount.Exact

namespace ManaCost.Amount

/-!
# Totals of amounts

A sum of amounts is rounded wherever it is taken, so that it may depend on how its parts are grouped.
An amount comes to an exact total when it follows it and is infinite wherever the total is.  The main
statement is `ComesTo.unique`: amounts that come to one total that is exact are equal, however they
were added up.
-/

variable {left right : Amount} {leftTotal rightTotal total : ℕ∞}

/-- An amount is as good as an exact total, and infinite when the total is. -/
structure ComesTo
    (amount : Amount)
    (total : ℕ∞) :
    Prop where
  follows : amount.Follows total
  infinite : total = ⊤ → amount = .infinite

theorem comesTo_of_isExact
    (exact : left.IsExact) :
    left.ComesTo left.steps where
  follows := follows_of_isExact exact
  infinite := steps_eq_top_iff.1

@[simp] theorem add_infinite
    (amount : Amount) :
    amount.add .infinite = .infinite := by
  cases amount <;> rfl

@[simp] theorem infinite_add
    (amount : Amount) :
    infinite.add amount = .infinite := by
  cases amount <;> rfl

/-- Sums come to the sums of what their parts come to. -/
theorem ComesTo.add
    (leftComes : left.ComesTo leftTotal)
    (rightComes : right.ComesTo rightTotal) :
    (left.add right).ComesTo (leftTotal + rightTotal) where
  follows := leftComes.follows.add rightComes.follows
  infinite unbounded := by
    rcases ENat.add_eq_top.1 unbounded with leftTop | rightTop
    · rw [leftComes.infinite leftTop, infinite_add]
    · rw [rightComes.infinite rightTop, add_infinite]

/-- Exact amounts that are added up come to the sum of their steps. -/
theorem comesTo_sum
    {amounts : List Amount}
    (exact : ∀ amount ∈ amounts, amount.IsExact) :
    (sum amounts).ComesTo (amounts.map steps).sum := by
  -- Amounts are added up from the left, so that the induction starts from any of them.
  have onto (start : Amount) (total : ℕ∞) (comes : start.ComesTo total) :
      (amounts.foldl add start).ComesTo (total + (amounts.map steps).sum) := by
    induction amounts generalizing start total with
    | nil =>
        simpa using comes
    | cons amount rest inductionHypothesis =>
        have next := comes.add (comesTo_of_isExact (exact amount (.head rest)))
        have tail := inductionHypothesis (fun other member => exact other (.tail amount member))
          _ _ next
        simpa [add_assoc] using tail
  have zero : Amount.zero.ComesTo 0 := by
    simpa using comesTo_of_isExact isExact_zero
  simpa [sum] using onto .zero 0 zero

/-- An amount that comes to an exact total has that many steps. -/
theorem ComesTo.steps_eq
    (comes : left.ComesTo total)
    (exact : IsExactTotal total) :
    left.steps = total := by
  rcases exact with unbounded | below
  · rw [comes.infinite unbounded, unbounded, steps_infinite]
  · exact comes.follows.steps_eq below

/-- An amount that comes to an exact total is exact. -/
theorem ComesTo.isExact
    (comes : left.ComesTo total)
    (exact : IsExactTotal total) :
    left.IsExact := by
  rcases exact with unbounded | below
  · rw [comes.infinite unbounded]
    trivial
  · exact comes.follows.isExact below

/-- Amounts that come to one exact total are equal. -/
theorem ComesTo.unique
    (leftComes : left.ComesTo total)
    (rightComes : right.ComesTo total)
    (exact : IsExactTotal total) :
    left = right :=
  steps_injective ((leftComes.steps_eq exact).trans (rightComes.steps_eq exact).symm)

/-- A total of computed amounts stands for an exact total: they are equal or have both reached the
limit, and the computed one is infinite when the other is. -/
structure StandsFor
    (computed total : ℕ∞) :
    Prop where
  eq_or_reached : computed = total ∨ (exactLimit : ℕ∞) ≤ computed ∧ (exactLimit : ℕ∞) ≤ total
  infinite : total = ⊤ → computed = ⊤

theorem ComesTo.standsFor
    (comes : left.ComesTo total) :
    StandsFor left.steps total where
  eq_or_reached := comes.follows.eq_or_reached
  infinite := steps_eq_top_iff.2 ∘ comes.infinite

theorem StandsFor.add
    {leftComputed rightComputed : ℕ∞}
    (leftStands : StandsFor leftComputed leftTotal)
    (rightStands : StandsFor rightComputed rightTotal) :
    StandsFor (leftComputed + rightComputed) (leftTotal + rightTotal) where
  eq_or_reached := by
    rcases leftStands.eq_or_reached with rfl | ⟨computed, exact⟩
    · rcases rightStands.eq_or_reached with rfl | ⟨computed, exact⟩
      · exact .inl rfl
      · exact .inr ⟨computed.trans le_add_self, exact.trans le_add_self⟩
    · exact .inr ⟨computed.trans le_self_add, exact.trans le_self_add⟩
  infinite unbounded := by
    rw [ENat.add_eq_top] at unbounded ⊢
    exact unbounded.imp leftStands.infinite rightStands.infinite

theorem StandsFor.mul
    {computed : ℕ∞}
    (stands : StandsFor computed total)
    (count : Nat) :
    StandsFor (computed * count) (total * count) := by
  rcases Nat.eq_zero_or_pos count with rfl | positive
  · rw [Nat.cast_zero, mul_zero, mul_zero]
    exact ⟨.inl rfl, id⟩
  · have grown (steps : ℕ∞) : steps ≤ steps * count :=
      le_mul_of_one_le_right' (Nat.one_le_cast.2 positive)
    constructor
    · rcases stands.eq_or_reached with rfl | ⟨reached, exact⟩
      · exact .inl rfl
      · exact .inr ⟨reached.trans (grown _), exact.trans (grown _)⟩
    · intro unbounded
      have totalTop : total = ⊤ := by
        by_contra finite
        exact WithTop.mul_ne_top finite (ENat.natCast_ne_top count) unbounded
      exact top_unique ((stands.infinite totalTop).ge.trans (grown computed))

/-- What comes to a computed total comes to the exact total that it stands for. -/
theorem ComesTo.trans
    (comes : left.ComesTo leftTotal)
    (stands : StandsFor leftTotal total) :
    left.ComesTo total where
  follows := comes.follows.trans stands.eq_or_reached
  infinite := comes.infinite ∘ stands.infinite

/-- Amounts that are exact, and so is their total. -/
structure AddUp
    (amounts : List Amount) :
    Prop where
  exact : ∀ amount ∈ amounts, amount.IsExact
  total : IsExactTotal (amounts.map steps).sum

theorem AddUp.pair
    (addUp : AddUp [left, right]) :
    left.IsExact ∧ right.IsExact ∧ IsExactTotal (left.steps + right.steps) := by
  refine ⟨addUp.exact left (by simp), addUp.exact right (by simp), ?_⟩
  simpa using addUp.total

/-- An amount twice is the amount added to itself. -/
theorem scale_two
    (amount : Amount) :
    amount.scale 2 = amount.add amount := by
  cases amount with
  | finite steps isDouble =>
      rw [scale, roundSteps_of_le (by decide), Nat.mul_two]
      rfl
  | infinite => rfl

end ManaCost.Amount
