import Mathlib
import ManaCost.Proofs.Amount.Decimal

namespace ManaCost.Amount

/-!
# Nearest amounts

What rounding returns is described without the way it is computed: no other amount is as close, or
one is as close and the significand of the result is even.  An infinite amount takes the place of the
first power of two that no finite amount reaches.  The main statement is `isNearest_iff`: every
quotient has exactly one nearest amount, and rounding finds it.
-/

/-- The number of steps that an amount is told by when numbers are rounded to amounts. -/
def place : Amount → Nat
  | .finite steps _ => steps
  | .infinite => overflowSteps

/-- An amount is the nearest one to a number of steps; of two that are as near the even one is. -/
structure IsNearest
    (amount : Amount)
    (steps : ℚ) :
    Prop where
  closest : ∀ other : Amount, |steps - amount.place| ≤ |steps - other.place|
  even : ∀ other : Amount, other ≠ amount → |steps - other.place| = |steps - amount.place| →
    2 * spacing amount.place ∣ amount.place

theorem place_infinite :
    infinite.place = overflowSteps :=
  rfl

theorem spacing_dvd_place
    (amount : Amount) :
    spacing amount.place ∣ amount.place := by
  cases amount with
  | finite steps isDouble =>
      exact isDouble.1
  | infinite =>
      rw [place_infinite]
      unfold overflowSteps
      generalize 2098 = exponent
      have whole := spacing_dvd 1 exponent (by decide)
      rwa [Nat.one_mul] at whole

theorem place_le
    (amount : Amount) :
    amount.place ≤ overflowSteps := by
  cases amount with
  | finite steps isDouble => exact isDouble.2.le
  | infinite => exact Nat.le_refl _

theorem place_injective
    {left right : Amount}
    (same : left.place = right.place) :
    left = right := by
  cases left with
  | finite steps isDouble =>
      cases right with
      | finite other otherDouble =>
          obtain rfl : steps = other := same
          rfl
      | infinite => exact absurd same isDouble.2.ne
  | infinite =>
      cases right with
      | finite other otherDouble => exact absurd same.symm otherDouble.2.ne
      | infinite => rfl

/-- Rounding to a whole number is off by one half at most, and then the result is even. -/
theorem abs_sub_roundHalfEven_le
    {denominator : Nat}
    (positive : 0 < denominator)
    (numerator : Nat) :
    2 * |(numerator : ℤ) - denominator * roundHalfEven numerator denominator| ≤ denominator ∧
      (2 * |(numerator : ℤ) - denominator * roundHalfEven numerator denominator| = denominator →
        2 ∣ roundHalfEven numerator denominator) := by
  have parts : (numerator : ℤ) =
      denominator * (numerator / denominator : Nat) + (numerator % denominator : Nat) := by
    exact_mod_cast (Nat.div_add_mod numerator denominator).symm
  have small := Nat.mod_lt numerator positive
  unfold roundHalfEven
  dsimp only
  generalize numerator / denominator = quotient at parts ⊢
  generalize numerator % denominator = remainder at parts small ⊢
  have below : (numerator : ℤ) - denominator * quotient = remainder := by
    rw [parts]
    ring
  have above : (numerator : ℤ) - denominator * (quotient + 1 : Nat) = remainder - denominator := by
    rw [parts]
    push_cast
    ring
  split
  · rw [below, abs_of_nonneg (Int.natCast_nonneg remainder)]
    omega
  · split
    · rw [above, abs_of_nonpos (by omega)]
      omega
    · rcases Nat.mod_two_eq_zero_or_one quotient with even | odd
      · rw [even, Nat.add_zero, below, abs_of_nonneg (Int.natCast_nonneg remainder)]
        omega
      · rw [odd, above, abs_of_nonpos (by omega)]
        omega

/-- Rounding a quotient is off by half the spacing at most, and then the significand is even. -/
theorem abs_sub_roundQuotient_le
    {denominator : Nat}
    (positive : 0 < denominator)
    (numerator : Nat) :
    |(numerator / denominator : ℚ) - roundQuotient numerator denominator| ≤
        (spacing (numerator / denominator) : ℚ) / 2 ∧
      (|(numerator / denominator : ℚ) - roundQuotient numerator denominator| =
          (spacing (numerator / denominator) : ℚ) / 2 →
        2 * spacing (numerator / denominator) ∣ roundQuotient numerator denominator) := by
  unfold roundQuotient
  dsimp only
  have unitPositive := spacing_pos (numerator / denominator)
  generalize spacing (numerator / denominator) = unit at unitPositive ⊢
  obtain ⟨bound, even⟩ := abs_sub_roundHalfEven_le (Nat.mul_pos positive unitPositive) numerator
  generalize roundHalfEven numerator (denominator * unit) = significand at bound even ⊢
  have denominatorPositive : (0 : ℚ) < denominator := by
    exact_mod_cast positive
  have exact : (numerator / denominator : ℚ) - (significand * unit : Nat) =
      (((numerator : ℤ) - (denominator * unit : Nat) * significand : ℤ) : ℚ) / denominator := by
    push_cast
    field_simp
  rw [exact, abs_div, abs_of_pos denominatorPositive, ← Int.cast_abs]
  generalize |(numerator : ℤ) - (denominator * unit : Nat) * significand| = distance at bound even
  have scaledBound : 2 * (distance : ℚ) ≤ denominator * unit := by
    exact_mod_cast bound
  constructor
  · rw [div_le_div_iff₀ denominatorPositive two_pos]
    linarith
  · intro far
    rw [div_eq_div_iff denominatorPositive.ne' two_ne_zero] at far
    have tie : 2 * distance = (denominator * unit : Nat) := by
      have scaledFar : 2 * (distance : ℚ) = denominator * unit := by
        linarith
      exact_mod_cast scaledFar
    exact Nat.mul_dvd_mul_right (even tie) unit

/-- Different multiples of a spacing are no nearer to a number than half of it on both sides. -/
theorem le_add_abs_of_dvd
    {unit left right : Nat}
    (leftMultiple : unit ∣ left)
    (rightMultiple : unit ∣ right)
    (different : left ≠ right)
    (steps : ℚ) :
    (unit : ℚ) ≤ |steps - left| + |steps - right| := by
  have apart : (unit : ℤ) ≤ |(left : ℤ) - right| := by
    apply Int.le_of_dvd (abs_pos.2 (sub_ne_zero.2 (by exact_mod_cast different)))
    rw [dvd_abs]
    exact dvd_sub (by exact_mod_cast leftMultiple) (by exact_mod_cast rightMultiple)
  calc
    (unit : ℚ) ≤ |(left : ℚ) - right| := by exact_mod_cast apart
    _ ≤ |(left : ℚ) - steps| + |steps - right| := abs_sub_le _ _ _
    _ = |steps - left| + |steps - right| := by rw [abs_sub_comm]

/-- A representable number is a multiple of the spacing around a quotient, or lies below a multiple
of it that the quotient has reached. -/
theorem spacing_dvd_or_exists_between
    {place : Nat}
    (representable : spacing place ∣ place)
    (quotient : Nat) :
    spacing quotient ∣ place ∨
      ∃ power, spacing quotient ∣ power ∧ place < power ∧ power ≤ quotient := by
  by_cases few : quotient.log2 ≤ 52
  · rw [spacing_eq quotient, Nat.sub_eq_zero_of_le few]
    exact .inl (one_dvd place)
  · have leading : 2 ^ quotient.log2 ≤ quotient := by
      apply Nat.log2_self_le
      rintro rfl
      exact few (by decide)
    by_cases reached : 2 ^ quotient.log2 ≤ place
    · refine .inl (two_pow_dvd_of_le _ representable ?_)
      rwa [Nat.sub_add_cancel (Nat.le_of_not_ge few)]
    · exact .inr ⟨2 ^ quotient.log2, Nat.pow_dvd_pow 2 (Nat.sub_le _ _), Nat.lt_of_not_ge reached,
        leading⟩

/-- Rounding finds the closest representable number, and of two the even one. -/
theorem abs_sub_roundQuotient_le_of_dvd
    {denominator place : Nat}
    (positive : 0 < denominator)
    (numerator : Nat)
    (representable : spacing place ∣ place) :
    |(numerator / denominator : ℚ) - roundQuotient numerator denominator| ≤
        |(numerator / denominator : ℚ) - place| ∧
      (place ≠ roundQuotient numerator denominator →
        |(numerator / denominator : ℚ) - place| =
            |(numerator / denominator : ℚ) - roundQuotient numerator denominator| →
          2 * spacing (numerator / denominator) ∣ roundQuotient numerator denominator) := by
  obtain ⟨bound, even⟩ := abs_sub_roundQuotient_le positive numerator
  have floor : ((numerator / denominator : Nat) : ℚ) ≤ numerator / denominator := Nat.cast_div_le
  have roundedMultiple : spacing (numerator / denominator) ∣ roundQuotient numerator denominator :=
    Nat.dvd_mul_left _ _
  have between := spacing_dvd_or_exists_between representable (numerator / denominator)
  generalize (numerator / denominator : ℚ) = steps at bound even floor ⊢
  generalize spacing (numerator / denominator) = unit at bound even between roundedMultiple ⊢
  generalize roundQuotient numerator denominator = rounded at bound even roundedMultiple ⊢
  have multiples {multiple : Nat} (isMultiple : unit ∣ multiple) (different : multiple ≠ rounded) :
      (unit : ℚ) / 2 ≤ |steps - multiple| := by
    have apart := le_add_abs_of_dvd isMultiple roundedMultiple different steps
    linarith
  rcases between with isMultiple | ⟨power, isMultiple, below, reached⟩
  · by_cases same : place = rounded
    · exact ⟨by rw [same], fun different => absurd same different⟩
    · have far := multiples isMultiple same
      exact ⟨bound.trans far, fun _ tie => even (le_antisymm bound (tie ▸ far))⟩
  · -- A multiple lies between, which is closer than the number and not closer than the result.
    have powerFar : |steps - rounded| ≤ |steps - power| := by
      by_cases same : power = rounded
      · rw [same]
      · exact bound.trans (multiples isMultiple same)
    have reachedSteps : (power : ℚ) ≤ steps :=
      (Nat.cast_le.2 reached).trans floor
    have belowSteps : (place : ℚ) < power := by
      exact_mod_cast below
    rw [abs_of_nonneg (sub_nonneg.2 reachedSteps)] at powerFar
    have farther : |steps - rounded| < |steps - place| := by
      rw [abs_of_nonneg (sub_nonneg.2 (belowSteps.le.trans reachedSteps))]
      linarith
    exact ⟨farther.le, fun _ tie => absurd tie farther.ne'⟩

theorem roundQuotient_le
    (numerator denominator : Nat) :
    roundQuotient numerator denominator ≤ 2 ^ 53 * spacing (numerator / denominator) := by
  have bound :=
    roundHalfEven_le numerator (denominator * spacing (numerator / denominator))
  rw [← Nat.div_div_eq_div_mul] at bound
  exact Nat.mul_le_mul_right _ (bound.trans (div_spacing_lt (numerator / denominator)))

/-- An even significand stays even when it is normalized. -/
theorem two_mul_spacing_dvd
    {shift steps : Nat}
    (even : 2 * 2 ^ shift ∣ steps)
    (small : steps ≤ 2 ^ 53 * 2 ^ shift) :
    2 * spacing steps ∣ steps := by
  rw [← Nat.pow_succ'] at even
  rw [← Nat.pow_add] at small
  rw [spacing_eq, ← Nat.pow_succ']
  rcases Nat.eq_zero_or_pos steps with rfl | positive
  · exact Nat.dvd_zero _
  · rcases Nat.eq_or_lt_of_le small with rfl | below
    · rw [Nat.log2_two_pow]
      exact Nat.pow_dvd_pow 2 (by omega)
    · have bits := (Nat.log2_lt positive.ne').2 below
      exact (Nat.pow_dvd_pow 2 (by omega)).trans even

/-- The place of an infinite amount is even. -/
theorem two_mul_spacing_infinite_dvd :
    2 * spacing infinite.place ∣ infinite.place := by
  rw [place_infinite]
  unfold overflowSteps
  have large : 53 ≤ 2098 := by decide
  generalize 2098 = exponent at large ⊢
  rw [Nat.pow_eq, spacing_eq, Nat.log2_two_pow, ← Nat.pow_succ']
  exact Nat.pow_dvd_pow 2 (by omega)

/-- Rounding finds a nearest amount. -/
theorem isNearest_ofQuotient
    {denominator : Nat}
    (positive : 0 < denominator)
    (numerator : Nat) :
    (ofQuotient numerator denominator).IsNearest (numerator / denominator) := by
  have rounded (other : Amount) :=
    abs_sub_roundQuotient_le_of_dvd positive numerator other.spacing_dvd_place
  unfold ofQuotient
  split
  · rename_i small
    refine ⟨fun other => (rounded other).1, fun other different tie => ?_⟩
    have evenUnit := (rounded other).2 (fun same => different (place_injective same)) tie
    exact two_mul_spacing_dvd evenUnit (roundQuotient_le numerator denominator)
  · rename_i large
    refine ⟨fun other => ?_, fun _ _ _ => two_mul_spacing_infinite_dvd⟩
    have reached : (overflowSteps : ℚ) ≤ roundQuotient numerator denominator :=
      Nat.cast_le.2 (Nat.le_of_not_lt large)
    have otherLe : (other.place : ℚ) ≤ overflowSteps := Nat.cast_le.2 other.place_le
    have closest := (rounded other).1
    rw [place_infinite]
    rcases le_total (overflowSteps : ℚ) (numerator / denominator) with above | below
    · rw [abs_of_nonneg (sub_nonneg.2 above), abs_of_nonneg (sub_nonneg.2 (otherLe.trans above))]
      linarith
    · rw [abs_of_nonpos (sub_nonpos.2 (below.trans reached))] at closest
      rw [abs_of_nonpos (sub_nonpos.2 below)]
      linarith

theorem spacing_dvd_spacing
    {left right : Nat}
    (least : left ≤ right) :
    spacing left ∣ spacing right := by
  rcases Nat.eq_zero_or_pos left with rfl | positive
  · exact one_dvd _
  · have bits : left.log2 ≤ right.log2 :=
      (Nat.le_log2 (positive.trans_le least).ne').2
        ((Nat.log2_self_le positive.ne').trans least)
    exact Nat.pow_dvd_pow 2 (Nat.sub_le_sub_right bits 52)

/-- The next number after a representable one is representable. -/
theorem spacing_dvd_add_spacing
    {place : Nat}
    (representable : spacing place ∣ place) :
    spacing (place + spacing place) ∣ place + spacing place := by
  have significand : place / spacing place * spacing place = place :=
    Nat.div_mul_cancel representable
  have small := div_spacing_lt place
  have next : place + spacing place =
      (place / spacing place + 1) * Nat.pow 2 (place.log2 - 52) := by
    rw [Nat.add_mul, Nat.one_mul]
    exact congrArg (· + spacing place) significand.symm
  rw [next]
  exact spacing_dvd _ _ small

/-- Between two even amounts lies another: the next one after the smaller of them is odd. -/
theorem exists_between
    {left right : Amount}
    (leftEven : 2 * spacing left.place ∣ left.place)
    (rightEven : 2 * spacing right.place ∣ right.place)
    (before : left.place < right.place) :
    ∃ next : Amount, left.place < next.place ∧ next.place < right.place := by
  have finer := spacing_dvd_spacing before.le
  have unitPositive := spacing_pos left.place
  have nextRepresentable := spacing_dvd_add_spacing left.spacing_dvd_place
  generalize spacing left.place = unit at leftEven finer unitPositive nextRepresentable
  have rightMultiple : 2 * unit ∣ right.place := (Nat.mul_dvd_mul_left 2 finer).trans rightEven
  have gap : 2 * unit ≤ right.place - left.place :=
    Nat.le_of_dvd (Nat.sub_pos_of_lt before) (Nat.dvd_sub rightMultiple leftEven)
  have inside : left.place + unit < right.place := by
    omega
  exact ⟨.finite (left.place + unit)
    ⟨nextRepresentable, Nat.lt_of_lt_of_le inside right.place_le⟩,
    Nat.lt_add_of_pos_right unitPositive, inside⟩

/-- A number of steps has one nearest amount. -/
theorem IsNearest.unique
    {left right : Amount}
    {steps : ℚ}
    (leftNearest : left.IsNearest steps)
    (rightNearest : right.IsNearest steps) :
    left = right := by
  by_contra different
  wlog before : left.place < right.place generalizing left right
  · have after := Nat.lt_of_le_of_ne (Nat.le_of_not_lt before)
      (fun same => different (place_injective same.symm))
    exact this rightNearest leftNearest (Ne.symm different) after
  have tie : |steps - left.place| = |steps - right.place| :=
    le_antisymm (leftNearest.closest right) (rightNearest.closest left)
  obtain ⟨next, afterLeft, beforeRight⟩ :=
    exists_between (leftNearest.even right (Ne.symm different) tie.symm)
      (rightNearest.even left different tie) before
  have afterSteps : (left.place : ℚ) < next.place := Nat.cast_lt.2 afterLeft
  have beforeSteps : (next.place : ℚ) < right.place := Nat.cast_lt.2 beforeRight
  have middle : 2 * steps = left.place + right.place := by
    rcases abs_eq_abs.1 tie with same | opposite
    · linarith
    · linarith
  have closer : |steps - next.place| < |steps - left.place| := by
    rw [abs_of_nonneg (show 0 ≤ steps - (left.place : ℚ) by linarith)]
    exact abs_lt.2 ⟨by linarith, by linarith⟩
  exact absurd (leftNearest.closest next) closer.not_ge

/-- A quotient has one nearest amount, which rounding finds. -/
theorem isNearest_iff
    {denominator : Nat}
    (positive : 0 < denominator)
    (numerator : Nat)
    {amount : Amount} :
    amount.IsNearest (numerator / denominator) ↔ amount = ofQuotient numerator denominator := by
  constructor
  · intro nearest
    exact nearest.unique (isNearest_ofQuotient positive numerator)
  · intro same
    rw [same]
    exact isNearest_ofQuotient positive numerator

end ManaCost.Amount

namespace ManaCost.Decimal

/-- The amount nearest to a decimal is told by the value of the decimal. -/
theorem isNearest_iff_eq_nearest
    {decimal : Decimal}
    {amount : Amount} :
    amount.IsNearest (decimal.value * Amount.stepsPerMana) ↔ amount = decimal.nearest := by
  have positive : 0 < 10 ^ (-decimal.exponent).toNat := Nat.pow_pos (by omega)
  have quotient : decimal.value * Amount.stepsPerMana =
      ((decimal.digits * 10 ^ decimal.exponent.toNat * Amount.stepsPerMana : Nat) : ℚ) /
        ((10 ^ (-decimal.exponent).toNat : Nat) : ℚ) := by
    rw [value_eq_div, div_mul_eq_mul_div, ← Nat.cast_mul]
  rw [quotient, nearest_eq, Amount.isNearest_iff positive]

end ManaCost.Decimal
