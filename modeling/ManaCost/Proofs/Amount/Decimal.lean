import Mathlib
import ManaCost.Amount.Decimal
import ManaCost.Proofs.Amount.Exact

namespace ManaCost

/-!
# Decimals that read back

The amount nearest to a decimal depends on its value only.  The main statement is
`nearest_shortest`: the decimal that identifies a finite amount reads back to it, whatever the
search for few digits comes to.
-/

namespace Decimal

/-- The number that a decimal is. -/
def value
    (decimal : Decimal) :
    ℚ :=
  decimal.digits * 10 ^ decimal.exponent

/-- A decimal as a quotient of whole numbers. -/
theorem value_eq_div
    (decimal : Decimal) :
    decimal.value =
      ((decimal.digits * 10 ^ decimal.exponent.toNat : Nat) : ℚ) /
        ((10 ^ (-decimal.exponent).toNat : Nat) : ℚ) := by
  unfold value
  push_cast
  rcases Int.eq_nat_or_neg decimal.exponent with ⟨places, shape | shape⟩
  · rw [shape, Int.toNat_natCast, Int.toNat_neg_natCast, pow_zero, div_one, zpow_natCast]
  · rw [shape, neg_neg, Int.toNat_natCast, Int.toNat_neg_natCast, pow_zero, mul_one, zpow_neg,
      zpow_natCast, div_eq_mul_inv]

theorem nearest_eq
    (decimal : Decimal) :
    decimal.nearest =
      .ofQuotient (decimal.digits * 10 ^ decimal.exponent.toNat * Amount.stepsPerMana)
        (10 ^ (-decimal.exponent).toNat) := by
  unfold nearest Amount.ofDecimal
  simp only [Nat.pow_eq]

theorem nearest_fraction
    (digits places : Nat) :
    nearest ⟨digits, -(places : Int)⟩ =
      .ofQuotient (digits * Amount.stepsPerMana) (10 ^ places) := by
  rw [nearest_eq, Int.toNat_neg_natCast, neg_neg, Int.toNat_natCast, pow_zero, mul_one]

theorem nearest_zero :
    nearest ⟨0, 0⟩ = .zero := by
  decide +kernel

/-- Decimals of one value have one nearest amount. -/
theorem nearest_eq_of_value_eq
    {left right : Decimal}
    (same : left.value = right.value) :
    left.nearest = right.nearest := by
  have leftPositive : 0 < 10 ^ (-left.exponent).toNat := Nat.pow_pos (by omega)
  have rightPositive : 0 < 10 ^ (-right.exponent).toNat := Nat.pow_pos (by omega)
  rw [value_eq_div, value_eq_div, div_eq_div_iff (by exact_mod_cast leftPositive.ne')
    (by exact_mod_cast rightPositive.ne')] at same
  have crossed : left.digits * 10 ^ left.exponent.toNat * 10 ^ (-right.exponent).toNat =
      right.digits * 10 ^ right.exponent.toNat * 10 ^ (-left.exponent).toNat := by
    exact_mod_cast same
  rw [nearest_eq, nearest_eq]
  apply Amount.ofQuotient_eq_of_mul_eq leftPositive rightPositive
  rw [Nat.mul_right_comm, crossed, Nat.mul_right_comm]

end Decimal

namespace Amount

/-- All exact digits of a finite amount make up its steps in the base ten. -/
theorem exactUnits_mul_stepsPerMana
    (steps : Nat) :
    exactUnits steps * stepsPerMana = steps * 10 ^ 1074 := by
  unfold exactUnits stepsPerMana
  generalize 1074 = places
  calc
    steps * 5 ^ places * 2 ^ places = steps * (5 ^ places * 2 ^ places) := Nat.mul_assoc _ _ _
    _ = steps * 10 ^ places := by rw [← Nat.mul_pow]

/-- The exact digits of a finite amount read back to it. -/
theorem nearest_exactUnits
    {steps : Nat}
    (isDouble : IsDouble steps) :
    Decimal.nearest ⟨exactUnits steps, -1074⟩ = .finite steps isDouble := by
  have places : (-1074 : Int) = -((1074 : Nat) : Int) := rfl
  have positive (places : Nat) : 0 < 10 ^ places := Nat.pow_pos Nat.ofNat_pos
  have denominatorPositive := positive 1074
  rw [places, Decimal.nearest_fraction, exactUnits_mul_stepsPerMana]
  generalize 10 ^ 1074 = denominator at denominatorPositive ⊢
  exact ofQuotient_mul denominatorPositive isDouble

/-- A candidate is one of the neighbours of the exact value on its grid, and reads back. -/
theorem candidate?_eq_some
    {amount : Amount}
    {units dropped : Nat}
    {decimal : Decimal}
    (found : candidate? amount units dropped = some decimal) :
    decimal.nearest = amount ∧
      (decimal = onGrid dropped (units / 10 ^ dropped) ∨
        decimal = onGrid dropped (units / 10 ^ dropped + 1)) := by
  have power : 10 ^ dropped = Nat.pow 10 dropped := rfl
  rw [power]
  unfold candidate? at found
  dsimp only at found
  split at found
  · rename_i lower
    split at found
    · rename_i upper
      have nearer : roundHalfEven units (Nat.pow 10 dropped) = units / Nat.pow 10 dropped ∨
          roundHalfEven units (Nat.pow 10 dropped) = units / Nat.pow 10 dropped + 1 := by
        have least := le_roundHalfEven units (Nat.pow 10 dropped)
        have most := roundHalfEven_le units (Nat.pow 10 dropped)
        omega
      obtain rfl := Option.some.inj found
      rcases nearer with isLower | isUpper
      · rw [isLower]
        exact ⟨lower, .inl rfl⟩
      · rw [isUpper]
        exact ⟨upper, .inr rfl⟩
    · obtain rfl := Option.some.inj found
      exact ⟨lower, .inl rfl⟩
  · split at found
    · rename_i upper
      obtain rfl := Option.some.inj found
      exact ⟨upper, .inr rfl⟩
    · simp at found

/-- The decimal that identifies an amount is a candidate, or has all exact digits. -/
theorem shortest_cases
    (steps : Nat)
    (isDouble : IsDouble steps) :
    (∃ index,
      candidate? (.finite steps isDouble) (exactUnits steps)
        (digitCount (exactUnits steps) - (index + 1)) = some (shortest steps isDouble)) ∨
      shortest steps isDouble = ⟨exactUnits steps, -1074⟩ := by
  unfold shortest
  dsimp only
  cases search : (List.range 17).findSome? fun index =>
      candidate? (.finite steps isDouble) (exactUnits steps)
        (digitCount (exactUnits steps) - (index + 1)) with
  | none => exact .inr rfl
  | some decimal =>
      obtain ⟨index, -, found⟩ := List.exists_of_findSome?_eq_some search
      exact .inl ⟨index, found⟩

/-- The decimal that identifies an amount reads back to it. -/
theorem nearest_shortest
    (steps : Nat)
    (isDouble : IsDouble steps) :
    (shortest steps isDouble).nearest = .finite steps isDouble := by
  rcases shortest_cases steps isDouble with ⟨index, found⟩ | all
  · exact (candidate?_eq_some found).1
  · rw [all, nearest_exactUnits isDouble]

/-- The decimal that identifies a positive amount has a digit. -/
theorem shortest_digits_pos
    {steps : Nat}
    (isDouble : IsDouble steps)
    (positive : 0 < steps) :
    0 < (shortest steps isDouble).digits := by
  rw [Nat.pos_iff_ne_zero]
  intro none
  have nothing : (shortest steps isDouble).value = Decimal.value ⟨0, 0⟩ := by
    rw [Decimal.value, none, Decimal.value, Nat.cast_zero, zero_mul, zero_mul]
  have reads := nearest_shortest steps isDouble
  rw [Decimal.nearest_eq_of_value_eq nothing, Decimal.nearest_zero] at reads
  have same : 0 = steps := (Amount.finite.inj reads)
  omega

/-- An approximation of the logarithm of two from below gives a power of ten that fits. -/
theorem pow_mul_div_le
    {numerator denominator : Nat}
    (positive : 0 < denominator)
    (ratio : 10 ^ numerator ≤ 2 ^ denominator)
    (exponent : Nat) :
    10 ^ (exponent * numerator / denominator) ≤ 2 ^ exponent := by
  rw [← Nat.pow_le_pow_iff_left positive.ne']
  calc
    (10 ^ (exponent * numerator / denominator)) ^ denominator =
        10 ^ (exponent * numerator / denominator * denominator) := (pow_mul _ _ _).symm
    _ ≤ 10 ^ (exponent * numerator) :=
      Nat.pow_le_pow_right Nat.ofNat_pos (Nat.div_mul_le_self _ _)
    _ = (10 ^ numerator) ^ exponent := by rw [Nat.mul_comm, pow_mul]
    _ ≤ (2 ^ denominator) ^ exponent := Nat.pow_le_pow_left ratio _
    _ = (2 ^ exponent) ^ denominator := by rw [← pow_mul, Nat.mul_comm, pow_mul]

/-- A power of ten whose exponent is below the number of digits does not exceed the number. -/
theorem pow_le_of_lt_digitCount
    {number exponent : Nat}
    (positive : 0 < number)
    (below : exponent < digitCount number) :
    10 ^ exponent ≤ number := by
  have ratio : 10 ^ 1233 ≤ 2 ^ 4096 := by
    decide +kernel
  have least : 10 ^ (number.log2 * 1233 / 4096) ≤ number :=
    (pow_mul_div_le Nat.ofNat_pos ratio number.log2).trans (Nat.log2_self_le positive.ne')
  unfold digitCount at below
  dsimp only at below
  split at below
  · exact (Nat.pow_le_pow_right Nat.ofNat_pos (Nat.le_of_lt_succ below)).trans least
  · rename_i large
    exact (Nat.pow_le_pow_right Nat.ofNat_pos (Nat.le_of_lt_succ below)).trans (not_lt.1 large)

/-- Leaving out digits below a power of ten keeps a number above that power. -/
theorem pow_le_div_mul_pow
    {units dropped exponent : Nat}
    (reached : 10 ^ exponent ≤ units)
    (fits : 10 ^ dropped ≤ units) :
    10 ^ exponent ≤ units / 10 ^ dropped * 10 ^ dropped := by
  have positive : 0 < 10 ^ dropped := Nat.pow_pos Nat.ofNat_pos
  rcases Nat.le_total dropped exponent with finer | coarser
  · obtain ⟨quotient, shape⟩ : 10 ^ dropped ∣ 10 ^ exponent := Nat.pow_dvd_pow 10 finer
    rw [shape, Nat.mul_comm]
    apply Nat.mul_le_mul_right
    rw [Nat.le_div_iff_mul_le positive, Nat.mul_comm, ← shape]
    exact reached
  · calc
      10 ^ exponent ≤ 10 ^ dropped := Nat.pow_le_pow_right Nat.ofNat_pos coarser
      _ = 1 * 10 ^ dropped := (Nat.one_mul _).symm
      _ ≤ units / 10 ^ dropped * 10 ^ dropped :=
        Nat.mul_le_mul_right _ ((Nat.one_le_div_iff positive).2 fits)

/-- A decimal on a grid is as large as its digits and the grid make it. -/
theorem le_value_onGrid
    {dropped digits exponent : Nat}
    (reached : 10 ^ exponent ≤ digits * 10 ^ dropped) :
    (10 : ℚ) ^ ((exponent : Int) - 1074) ≤ (onGrid dropped digits).value := by
  have cast : (10 : ℚ) ^ exponent ≤ digits * 10 ^ dropped := by
    exact_mod_cast reached
  unfold onGrid Decimal.value
  dsimp only
  generalize (1074 : Int) = places
  rw [zpow_sub₀ (by norm_num), zpow_sub₀ (by norm_num), zpow_natCast, zpow_natCast,
    ← mul_div_assoc]
  exact div_le_div_of_nonneg_right cast (by positivity)

/-- The decimal that identifies an amount keeps the power of ten that its exact digits reach. -/
theorem le_value_shortest
    {steps exponent : Nat}
    (isDouble : IsDouble steps)
    (reached : 10 ^ exponent ≤ exactUnits steps) :
    (10 : ℚ) ^ ((exponent : Int) - 1074) ≤ (shortest steps isDouble).value := by
  have positive : 0 < exactUnits steps := (Nat.pow_pos Nat.ofNat_pos).trans_le reached
  rcases shortest_cases steps isDouble with ⟨index, found⟩ | all
  · have kept : 10 ^ exponent ≤
        exactUnits steps / 10 ^ (digitCount (exactUnits steps) - (index + 1)) *
          10 ^ (digitCount (exactUnits steps) - (index + 1)) := by
      apply pow_le_div_mul_pow reached
      rcases Nat.eq_zero_or_pos (digitCount (exactUnits steps)) with none | some
      · rw [none, Nat.zero_sub, pow_zero]
        exact positive
      · exact pow_le_of_lt_digitCount positive (by omega)
    rcases (candidate?_eq_some found).2 with lower | upper
    · rw [lower]
      exact le_value_onGrid kept
    · rw [upper]
      exact le_value_onGrid (kept.trans (Nat.mul_le_mul_right _ (Nat.le_succ _)))
  · have exact : shortest steps isDouble = onGrid 0 (exactUnits steps) := by
      rw [all]
      rfl
    rw [exact]
    exact le_value_onGrid (by rwa [pow_zero, Nat.mul_one])

/-- What has reached the limit of exact amounts before rounding is not below it afterwards. -/
theorem exactLimit_le_of_ofQuotient
    {numerator denominator steps : Nat}
    {isDouble : IsDouble steps}
    (positive : 0 < denominator)
    (reached : exactLimit * denominator ≤ numerator)
    (nearest : ofQuotient numerator denominator = .finite steps isDouble) :
    exactLimit ≤ steps := by
  have quotient : exactLimit ≤ numerator / denominator :=
    (Nat.le_div_iff_mul_le positive).2 reached
  have rounded : exactLimit ≤ roundQuotient numerator denominator := by
    unfold exactLimit at quotient ⊢
    generalize 1126 = exponent at quotient ⊢
    exact two_pow_le_roundQuotient quotient
  unfold ofQuotient at nearest
  split at nearest
  · obtain rfl := Amount.finite.inj nearest
    exact rounded
  · exact Amount.noConfusion nearest

/-- The limit of exact amounts is below ten to the sixteenth. -/
theorem exactLimit_le_mul_stepsPerMana :
    exactLimit ≤ 10 ^ 16 * stepsPerMana := by
  decide +kernel

/-- A decimal that reads back to less than the limit of exact amounts has sixteen digits at most. -/
theorem value_lt_of_nearest
    {decimal : Decimal}
    {steps : Nat}
    {isDouble : IsDouble steps}
    (nearest : decimal.nearest = .finite steps isDouble)
    (small : steps < exactLimit) :
    decimal.value < 10 ^ 16 := by
  by_contra large
  rw [not_lt, Decimal.value_eq_div] at large
  have positive : 0 < 10 ^ (-decimal.exponent).toNat := Nat.pow_pos Nat.ofNat_pos
  rw [le_div_iff₀ (by exact_mod_cast positive)] at large
  have reached : 10 ^ 16 * 10 ^ (-decimal.exponent).toNat ≤
      decimal.digits * 10 ^ decimal.exponent.toNat := by
    exact_mod_cast large
  rw [Decimal.nearest_eq] at nearest
  refine absurd (exactLimit_le_of_ofQuotient positive ?_ nearest) (Nat.not_le_of_lt small)
  calc
    exactLimit * 10 ^ (-decimal.exponent).toNat ≤
        10 ^ 16 * stepsPerMana * 10 ^ (-decimal.exponent).toNat :=
      Nat.mul_le_mul_right _ exactLimit_le_mul_stepsPerMana
    _ = 10 ^ 16 * 10 ^ (-decimal.exponent).toNat * stepsPerMana := Nat.mul_right_comm _ _ _
    _ ≤ decimal.digits * 10 ^ decimal.exponent.toNat * stepsPerMana :=
      Nat.mul_le_mul_right _ reached

end Amount

end ManaCost
