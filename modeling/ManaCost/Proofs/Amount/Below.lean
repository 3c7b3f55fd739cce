import Mathlib
import ManaCost.Proofs.Amount.Difference
import ManaCost.Proofs.Amount.Grammar

namespace ManaCost

/-!
# Numbers below zero

A number behind a minus is taken away from nothing, or from one half when the sign of one half
follows it, and is refused when it is the larger one of the two as an amount.  Rounding moves the
boundary a little: a number rounds to more than an even amount when it lies more than half a spacing
above it.  The main statements are `Amount.exists_plusSigned_eq`, by which totals are the amounts
nearest to signed sums, and `IsMinus.ofToken_eq`.
-/

namespace Amount

/-- The order of amounts is that of their places. -/
theorem isLess_iff_place_lt
    {left right : Amount} :
    left.isLess right = true ↔ left.place < right.place := by
  rw [isLess_iff]
  cases left with
  | finite leftSteps leftDouble =>
      cases right with
      | finite rightSteps rightDouble => simp [place]
      | infinite => simpa [place] using leftDouble.2
  | infinite =>
      cases right with
      | finite rightSteps rightDouble => simpa [place] using rightDouble.2.le
      | infinite => simp

theorem isNearest_ofSteps
    (steps : Nat) :
    (ofSteps steps).IsNearest steps := by
  have nearest := isNearest_ofQuotient Nat.one_pos steps
  rwa [Nat.cast_one, div_one] at nearest

/-- Beside nothing and beside one half, sums and differences are rounded from their places. -/
theorem eq_ofSteps_place
    {start : Amount}
    (isStart : start ∈ [zero, half])
    (amount : Amount) :
    start.add amount = ofSteps (start.place + amount.place) ∧
      start.difference amount = ofSteps (start.place - amount.place) ∧
        amount.difference start = ofSteps (amount.place - start.place) := by
  have starts : ∀ start ∈ [zero, half], start.place < overflowSteps ∧
      .infinite = ofSteps (start.place + overflowSteps) ∧
        .infinite = ofSteps (overflowSteps - start.place) := by
    simp only [List.forall_mem_cons]
    decide +kernel
  obtain ⟨below, sum, difference⟩ := starts start isStart
  cases start with
  | infinite => exact absurd below (Nat.lt_irrefl _)
  | finite startSteps startDouble =>
      cases amount with
      | finite steps isDouble => exact ⟨rfl, rfl, rfl⟩
      | infinite =>
          refine ⟨sum, ?_, difference⟩
          rw [place_infinite, Nat.sub_eq_zero_of_le below.le, ofSteps_zero]
          rfl

/--
A number beside nothing or beside one half totals the amount nearest to the sum with the sign of the
number.  The total is below zero exactly when more is taken away than there was.
-/
theorem exists_plusSigned_eq
    {start : Amount}
    (isStart : start ∈ [zero, half])
    (negative : Bool)
    (amount : Amount) :
    ∃ magnitude,
      start.plusSigned negative amount = .of (negative && start.isLess amount) magnitude ∧
        magnitude.IsNearest
          |(start.place : ℚ) + (if negative then -amount.place else amount.place : ℚ)| := by
  obtain ⟨sum, left, excess⟩ := eq_ofSteps_place isStart amount
  cases negative with
  | false =>
      refine ⟨_, rfl, ?_⟩
      have steps : |(start.place : ℚ) + amount.place| = (start.place + amount.place : Nat) := by
        rw [Nat.cast_add, abs_of_nonneg (by positivity)]
      rw [if_neg Bool.false_ne_true, steps, sum]
      exact isNearest_ofSteps _
  | true =>
      cases less : start.isLess amount with
      | true =>
          have more := isLess_iff_place_lt.1 less
          have steps : |(start.place : ℚ) + -amount.place| = (amount.place - start.place : Nat) := by
            have cast : (start.place : ℚ) < amount.place := Nat.cast_lt.2 more
            rw [Nat.cast_sub more.le, abs_of_nonpos (by linarith)]
            ring
          refine ⟨ofSteps (amount.place - start.place), ?_, ?_⟩
          · simp [plusSigned, less, excess]
          · rw [if_pos rfl, steps]
            exact isNearest_ofSteps _
      | false =>
          have notMore : amount.place ≤ start.place :=
            not_lt.1 (mt isLess_iff_place_lt.2 (by simp [less]))
          have steps : |(start.place : ℚ) + -amount.place| = (start.place - amount.place : Nat) := by
            have cast : (amount.place : ℚ) ≤ start.place := Nat.cast_le.2 notMore
            rw [Nat.cast_sub notMore, abs_of_nonneg (by linarith)]
            ring
          refine ⟨ofSteps (start.place - amount.place), ?_, ?_⟩
          · simp [plusSigned, less, left]
          · rw [if_pos rfl, steps]
            exact isNearest_ofSteps _

/-- A finite amount has a next one. -/
theorem exists_next
    {amount : Amount}
    (finite : amount.place < overflowSteps) :
    ∃ next : Amount, next.place = amount.place + spacing amount.place := by
  have finer : spacing amount.place ∣ overflowSteps :=
    (spacing_dvd_spacing finite.le).trans infinite.spacing_dvd_place
  have gap : spacing amount.place ≤ overflowSteps - amount.place :=
    Nat.le_of_dvd (Nat.sub_pos_of_lt finite) (Nat.dvd_sub finer amount.spacing_dvd_place)
  rcases Nat.lt_or_ge (amount.place + spacing amount.place) overflowSteps with below | reached
  · exact ⟨.finite _ ⟨spacing_dvd_add_spacing amount.spacing_dvd_place, below⟩, rfl⟩
  · refine ⟨.infinite, ?_⟩
    rw [place_infinite]
    omega

namespace IsNearest

variable {amount bound : Amount} {steps : ℚ}

/-- What rounds to more than an even amount lies more than half a spacing above it. -/
theorem lt_of_place_lt
    (nearest : amount.IsNearest steps)
    (even : 2 * spacing bound.place ∣ bound.place)
    (more : bound.place < amount.place) :
    (bound.place : ℚ) + spacing bound.place / 2 < steps := by
  have finer : spacing bound.place ∣ amount.place :=
    (spacing_dvd_spacing more.le).trans amount.spacing_dvd_place
  have gap : spacing bound.place ≤ amount.place - bound.place :=
    Nat.le_of_dvd (Nat.sub_pos_of_lt more) (Nat.dvd_sub finer bound.spacing_dvd_place)
  have unitPositive := spacing_pos bound.place
  have coarser : 2 * spacing bound.place ∣ 2 * spacing amount.place :=
    Nat.mul_dvd_mul_left 2 (spacing_dvd_spacing more.le)
  have different : bound ≠ amount := fun same => more.ne (congrArg place same)
  have closest := nearest.closest bound
  have evenOfTie := nearest.even bound different
  generalize spacing bound.place = unit at even finer gap unitPositive coarser ⊢
  have reached : (bound.place : ℚ) + unit ≤ amount.place := by
    exact_mod_cast (by omega : bound.place + unit ≤ amount.place)
  have positive : (0 : ℚ) < unit := by
    exact_mod_cast unitPositive
  by_contra near
  rw [not_lt] at near
  rw [abs_of_nonpos (by linarith : steps - (amount.place : ℚ) ≤ 0)] at closest evenOfTie
  have above : (0 : ℚ) ≤ steps - bound.place := by
    by_contra under
    rw [abs_of_neg (not_le.1 under)] at closest
    linarith
  rw [abs_of_nonneg above] at closest evenOfTie
  -- Only a tie with the very next amount is left, which would make that amount even too.
  have next : amount.place = bound.place + unit := by
    exact_mod_cast (by linarith : (amount.place : ℚ) = bound.place + unit)
  have evenNext := coarser.trans (evenOfTie (by linarith))
  rw [next] at evenNext
  have shorter := Nat.le_of_dvd unitPositive ((Nat.dvd_add_right even).1 evenNext)
  omega

/-- What lies more than half a spacing above an amount rounds to more. -/
theorem place_lt_of_lt
    (nearest : amount.IsNearest steps)
    (finite : bound.place < overflowSteps)
    (above : (bound.place : ℚ) + spacing bound.place / 2 < steps) :
    bound.place < amount.place := by
  obtain ⟨next, isNext⟩ := exists_next finite
  have unitPositive : (0 : ℚ) < spacing bound.place := by
    exact_mod_cast spacing_pos bound.place
  have nextPlace : (next.place : ℚ) = bound.place + spacing bound.place := by
    exact_mod_cast isNext
  have closest := nearest.closest next
  by_contra notMore
  have most : (amount.place : ℚ) ≤ bound.place := by
    exact_mod_cast not_lt.1 notMore
  rw [abs_of_nonneg (by linarith : (0 : ℚ) ≤ steps - amount.place), nextPlace] at closest
  rcases abs_cases (steps - (bound.place + spacing bound.place : ℚ)) with ⟨distance, -⟩ |
    ⟨distance, -⟩
  · rw [distance] at closest
    linarith
  · rw [distance] at closest
    linarith

end IsNearest

/-- The boundary above an even amount, in mana. -/
theorem IsNearest.isLess_iff_lt
    {amount bound : Amount}
    {value margin : ℚ}
    (nearest : amount.IsNearest (value * stepsPerMana))
    (even : 2 * spacing bound.place ∣ bound.place)
    (finite : bound.place < overflowSteps)
    (isMargin : (bound.place : ℚ) + spacing bound.place / 2 = margin * stepsPerMana) :
    bound.isLess amount = true ↔ margin < value := by
  have positive : (0 : ℚ) < stepsPerMana := by
    exact_mod_cast (by decide +kernel : 0 < stepsPerMana)
  rw [isLess_iff_place_lt, ← mul_lt_mul_iff_left₀ positive, ← isMargin]
  exact ⟨nearest.lt_of_place_lt even, nearest.place_lt_of_lt finite⟩

/-- No more than half a step rounds to nothing. -/
theorem IsNearest.zero_isLess_iff
    {amount : Amount}
    {value : ℚ}
    (nearest : amount.IsNearest (value * stepsPerMana)) :
    zero.isLess amount = true ↔ 1 / 2 ^ 1075 < value := by
  have scale : (2 : ℚ) ^ 1075 = 2 * stepsPerMana := by
    have cast (exponent : Nat) : (2 : ℚ) ^ exponent = (2 ^ exponent : Nat) := by
      push_cast
      rfl
    have whole : 2 ^ 1075 = 2 * stepsPerMana := by
      decide +kernel
    rw [cast, whole, Nat.cast_mul, Nat.cast_ofNat]
  have positive : (stepsPerMana : ℚ) ≠ 0 := by
    exact_mod_cast (by decide +kernel : stepsPerMana ≠ 0)
  have step : spacing zero.place = 1 := by
    decide +kernel
  refine nearest.isLess_iff_lt (by decide +kernel) (by decide +kernel) ?_
  have none : zero.place = 0 := rfl
  rw [step, scale, none]
  generalize (stepsPerMana : ℚ) = unit at positive
  push_cast
  field_simp
  ring

/-- What lies above one half by no more than half the spacing rounds to one half at most. -/
theorem IsNearest.half_isLess_iff
    {amount : Amount}
    {value : ℚ}
    (nearest : amount.IsNearest (value * stepsPerMana)) :
    half.isLess amount = true ↔ 1 / 2 + 1 / 2 ^ 54 < value := by
  obtain ⟨unit, isHalf, gap, scale⟩ :
      ∃ unit, half.place = 2 ^ 53 * unit ∧ spacing half.place = 2 * unit ∧
        stepsPerMana = 2 ^ 54 * unit :=
    ⟨2 ^ 1020, by decide +kernel, by decide +kernel, by decide +kernel⟩
  refine nearest.isLess_iff_lt (by decide +kernel) (by decide +kernel) ?_
  rw [gap, isHalf, scale]
  push_cast
  ring

end Amount

/-- A minus before a magnitude, with or without the sign of one half behind it. -/
inductive IsMinus : List Char → ℚ → Bool → Prop
  | number
      {text : List Char}
      {value : ℚ}
      (isMagnitude : IsMagnitude text value) :
      IsMinus ('-' :: text) value false
  | numberAndHalf
      {text : List Char}
      {value : ℚ}
      (isMagnitude : IsMagnitude text value) :
      IsMinus ('-' :: text ++ [Amount.halfGlyph]) value true

namespace IsMinus

variable {token : List Char} {value : ℚ} {withHalf : Bool}

/-- What the magnitude behind a minus is taken away from. -/
def minuend
    (withHalf : Bool) :
    Amount :=
  if withHalf then .half else .zero

/-- The largest magnitude behind a minus that does not lead below zero. -/
def tolerance
    (withHalf : Bool) :
    ℚ :=
  if withHalf then 1 / 2 + 1 / 2 ^ 54 else 1 / 2 ^ 1075

theorem minuend_isLess_iff
    {amount : Amount}
    (nearest : amount.IsNearest (value * Amount.stepsPerMana)) :
    (minuend withHalf).isLess amount = true ↔ tolerance withHalf < value := by
  cases withHalf with
  | false => exact nearest.zero_isLess_iff
  | true => exact nearest.half_isLess_iff

theorem isTotal
    (isMinus : IsMinus token value withHalf)
    {amount : Amount}
    (nearest : amount.IsNearest (value * Amount.stepsPerMana)) :
    IsTotal token ((minuend withHalf).plusSigned true amount) := by
  cases isMinus with
  | number isMagnitude => exact .number (.minus isMagnitude nearest)
  | numberAndHalf isMagnitude => exact .numberAndHalf (.minus isMagnitude nearest)

theorem exists_nearest
    (isMinus : IsMinus token value withHalf) :
    ∃ amount : Amount, amount.IsNearest (value * Amount.stepsPerMana) := by
  have ofMagnitude {text : List Char} (isMagnitude : IsMagnitude text value) :
      ∃ amount : Amount, amount.IsNearest (value * Amount.stepsPerMana) := by
    obtain ⟨decimal, -, rfl⟩ := isMagnitude.exists_readMagnitude?
    exact ⟨decimal.nearest, Decimal.isNearest_iff_eq_nearest.2 rfl⟩
  cases isMinus with
  | number isMagnitude => exact ofMagnitude isMagnitude
  | numberAndHalf isMagnitude => exact ofMagnitude isMagnitude

/-- A magnitude behind a minus is refused when rounding leaves it above what it is taken from. -/
theorem ofToken_eq
    (isMinus : IsMinus token value withHalf)
    {amount : Amount}
    (nearest : amount.IsNearest (value * Amount.stepsPerMana)) :
    Amount.ofToken token =
      if tolerance withHalf < value then
        .error (.negative (.of true (amount.difference (minuend withHalf))))
      else
        .ok ((minuend withHalf).difference amount) := by
  rw [Amount.ofToken_of_isTotal (isMinus.isTotal nearest), Amount.plusSigned, if_pos rfl]
  by_cases above : tolerance withHalf < value
  · have less := (minuend_isLess_iff nearest).2 above
    have notZero : amount.difference (minuend withHalf) ≠ .zero := by
      rw [Ne, Amount.difference_eq_zero_iff, not_le, ← Amount.isLess_iff]
      exact less
    rw [if_pos less, if_pos above, Amount.ofSigned_of, if_pos ⟨rfl, notZero⟩]
  · have notLess := mt (minuend_isLess_iff nearest).1 above
    rw [if_neg notLess, if_neg above, Amount.ofSigned_of, if_neg (by simp)]

end IsMinus

end ManaCost
