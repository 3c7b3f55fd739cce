import Mathlib
import ManaCost.Proofs.Amount.Nearest
import ManaCost.Proofs.Amount.Numeral

namespace ManaCost

/-!
# The grammar of numbers

Numbers in tokens are described without their reader: digits of any script, perhaps with a point
among them, perhaps a minus in front and the sign of one half behind.  The value of the digits is
rational and the amount is the one nearest to it.  The main statements are
`Amount.ofToken_eq_ok_iff`, by which the reader accepts the totals of this grammar that are not below
zero, and `Amount.ofToken_eq_negative_iff`, by which it tells the others from what is no number.
-/

open Text

/-- Digits with or without a point among them, and the number that they write. -/
inductive IsMagnitude : List Char → ℚ → Prop
  | whole
      {digits : List Char}
      (areDigits : AreDecimalDigits digits)
      (some : digits ≠ []) :
      IsMagnitude digits (digitsValue digits)
  /-- The digits may be missing in front of the point or behind it. -/
  | point
      {digits fraction : List Char}
      (areDigits : AreDecimalDigits digits)
      (fractionDigits : AreDecimalDigits fraction)
      (some : digits ++ fraction ≠ []) :
      IsMagnitude (digits ++ '.' :: fraction)
        (digitsValue digits + digitsValue fraction / 10 ^ fraction.length)

/-- A number with or without a minus, whether it has one, and the amount nearest to its magnitude. -/
inductive IsNumber : List Char → Bool → Amount → Prop
  | plain
      {text : List Char}
      {value : ℚ}
      {amount : Amount}
      (isMagnitude : IsMagnitude text value)
      (isNearest : amount.IsNearest (value * Amount.stepsPerMana)) :
      IsNumber text false amount
  | minus
      {text : List Char}
      {value : ℚ}
      {amount : Amount}
      (isMagnitude : IsMagnitude text value)
      (isNearest : amount.IsNearest (value * Amount.stepsPerMana)) :
      IsNumber ('-' :: text) true amount

/-- A number, the sign of one half, or both one behind the other, and what they amount to: by
`Amount.exists_plusSigned_eq` the amount nearest to their sum, with its sign. -/
inductive IsTotal : List Char → Signed → Prop
  | number
      {text : List Char}
      {negative : Bool}
      {amount : Amount}
      (isNumber : IsNumber text negative amount) :
      IsTotal text (Amount.zero.plusSigned negative amount)
  | numberAndHalf
      {text : List Char}
      {negative : Bool}
      {amount : Amount}
      (isNumber : IsNumber text negative amount) :
      IsTotal (text ++ [Amount.halfGlyph]) (Amount.half.plusSigned negative amount)
  | half : IsTotal [Amount.halfGlyph] (.of false .half)

namespace IsMagnitude

variable {text : List Char} {value : ℚ}

/-- The digits around a point write the decimal of all digits with the point behind them. -/
theorem value_point
    (digits fraction : List Char) :
    (digitsValue digits + digitsValue fraction / 10 ^ fraction.length : ℚ) =
      Decimal.value ⟨digitsValue (digits ++ fraction), -(fraction.length : Int)⟩ := by
  rw [Decimal.value, digitsValue_append, zpow_neg, zpow_natCast]
  push_cast
  field_simp

theorem value_whole
    (digits : List Char) :
    (digitsValue digits : ℚ) = Decimal.value ⟨digitsValue digits, 0⟩ := by
  rw [Decimal.value, zpow_zero, mul_one]

/-- Magnitudes are read. -/
theorem exists_readMagnitude?
    (isMagnitude : IsMagnitude text value) :
    ∃ decimal, Numeral.readMagnitude? text = some decimal ∧ decimal.value = value := by
  cases isMagnitude with
  | whole areDigits some =>
      exact ⟨_, Numeral.readMagnitude?_digits areDigits some, (value_whole _).symm⟩
  | point areDigits fractionDigits some =>
      exact ⟨_, Numeral.readMagnitude?_point areDigits fractionDigits some,
        (value_point _ _).symm⟩

/-- What is read is a magnitude. -/
theorem of_readMagnitude?
    {decimal : Decimal}
    (isRead : Numeral.readMagnitude? text = some decimal) :
    IsMagnitude text decimal.value := by
  have cut : text.takeWhile isDecimalDigit ++ text.dropWhile isDecimalDigit = text :=
    List.takeWhile_append_dropWhile
  have areDigits : AreDecimalDigits (text.takeWhile isDecimalDigit) :=
    fun _ member => List.mem_takeWhile_imp member
  unfold Numeral.readMagnitude? at isRead
  dsimp only at isRead
  generalize text.takeWhile isDecimalDigit = digits at cut areDigits isRead
  generalize text.dropWhile isDecimalDigit = rest at cut isRead
  subst cut
  split at isRead
  · split at isRead
    · exact absurd isRead (Option.some_ne_none decimal).symm
    · rename_i some
      rw [← Option.some.inj isRead, ← value_whole, List.append_nil]
      exact .whole areDigits (mt List.isEmpty_iff.2 some)
  · rename_i fraction
    split at isRead
    · rename_i accepted
      rw [Bool.and_eq_true, List.all_eq_true, Bool.not_eq_true', List.isEmpty_eq_false_iff]
        at accepted
      rw [← Option.some.inj isRead, ← value_point]
      exact .point areDigits accepted.1 accepted.2
    · exact absurd isRead (Option.some_ne_none decimal).symm
  · exact absurd isRead (Option.some_ne_none decimal).symm

/-- The characters of magnitudes are digits and points. -/
theorem isDecimalDigit_or_eq
    (isMagnitude : IsMagnitude text value)
    {character : Char}
    (member : character ∈ text) :
    isDecimalDigit character = true ∨ character = '.' := by
  cases isMagnitude with
  | whole areDigits some =>
      exact .inl (areDigits character member)
  | point areDigits fractionDigits some =>
      rcases List.mem_append.1 member with inDigits | inRest
      · exact .inl (areDigits character inDigits)
      · rcases List.mem_cons.1 inRest with isPoint | inFraction
        · exact .inr isPoint
        · exact .inl (fractionDigits character inFraction)

theorem ne_nil
    (isMagnitude : IsMagnitude text value) :
    text ≠ [] := by
  cases isMagnitude with
  | whole areDigits some => exact some
  | point areDigits fractionDigits some =>
      exact List.append_ne_nil_of_right_ne_nil _ (List.cons_ne_nil _ _)

end IsMagnitude

namespace IsNumber

variable {text : List Char} {negative : Bool} {amount : Amount}

/-- A number is read as the numeral of its sign and of its nearest amount. -/
theorem exists_read?
    (isNumber : IsNumber text negative amount) :
    ∃ numeral, Numeral.read? text = some numeral ∧ numeral.negative = negative ∧
      numeral.magnitude.nearest = amount := by
  cases isNumber with
  | plain isMagnitude isNearest =>
      obtain ⟨decimal, isRead, rfl⟩ := isMagnitude.exists_readMagnitude?
      refine ⟨⟨false, decimal⟩, ?_, rfl, (Decimal.isNearest_iff_eq_nearest.1 isNearest).symm⟩
      unfold Numeral.read?
      split
      · have noMinus : ¬(isDecimalDigit '-' = true ∨ '-' = '.') := by
          decide +kernel
        exact absurd (isMagnitude.isDecimalDigit_or_eq (.head _)) noMinus
      · rw [isRead, Option.map_some]
  | minus isMagnitude isNearest =>
      obtain ⟨decimal, isRead, rfl⟩ := isMagnitude.exists_readMagnitude?
      refine ⟨⟨true, decimal⟩, ?_, rfl, (Decimal.isNearest_iff_eq_nearest.1 isNearest).symm⟩
      rw [Numeral.read?, isRead, Option.map_some]

/-- A text that is read as a numeral is a number. -/
theorem of_read?
    {numeral : Numeral}
    (isRead : Numeral.read? text = some numeral) :
    IsNumber text numeral.negative numeral.magnitude.nearest := by
  unfold Numeral.read? at isRead
  split at isRead
  · obtain ⟨decimal, magnitudeRead, rfl⟩ := Option.map_eq_some_iff.1 isRead
    exact .minus (.of_readMagnitude? magnitudeRead) (Decimal.isNearest_iff_eq_nearest.2 rfl)
  · obtain ⟨decimal, magnitudeRead, rfl⟩ := Option.map_eq_some_iff.1 isRead
    exact .plain (.of_readMagnitude? magnitudeRead) (Decimal.isNearest_iff_eq_nearest.2 rfl)

/-- The characters of numbers are digits, points and a minus. -/
theorem isDecimalDigit_or_mem
    (isNumber : IsNumber text negative amount)
    {character : Char}
    (member : character ∈ text) :
    isDecimalDigit character = true ∨ character ∈ ['.', '-'] := by
  cases isNumber with
  | plain isMagnitude isNearest =>
      exact (isMagnitude.isDecimalDigit_or_eq member).imp_right (by simp +contextual)
  | minus isMagnitude isNearest =>
      rcases List.mem_cons.1 member with isMinus | inMagnitude
      · exact .inr (by simp [isMinus])
      · exact (isMagnitude.isDecimalDigit_or_eq inMagnitude).imp_right (by simp +contextual)

/-- Glyphs and slashes do not stand in numbers. -/
theorem not_mem
    (isNumber : IsNumber text negative amount)
    {character : Char}
    (isOther : character ∈ [Amount.halfGlyph, Amount.infinityGlyph, '/']) :
    character ∉ text := by
  intro member
  have others : [Amount.halfGlyph, Amount.infinityGlyph, '/'].any
      (fun other => isDecimalDigit other || ['.', '-'].contains other) = false := by
    decide +kernel
  have excluded := List.any_eq_false.1 others character isOther
  rw [Bool.or_eq_true, List.contains_iff_mem] at excluded
  exact excluded (isNumber.isDecimalDigit_or_mem member)

theorem ne_nil
    (isNumber : IsNumber text negative amount) :
    text ≠ [] := by
  cases isNumber with
  | plain isMagnitude isNearest => exact isMagnitude.ne_nil
  | minus isMagnitude isNearest => exact List.cons_ne_nil _ _

end IsNumber

namespace Amount

/-- A number is read as what it and the amount before it amount to. -/
theorem ofNumeral_of_isNumber
    {text : List Char}
    {negative : Bool}
    {amount : Amount}
    (isNumber : IsNumber text negative amount)
    (start : Amount) :
    ofNumeral start text = ofSigned (start.plusSigned negative amount) := by
  obtain ⟨numeral, isRead, rfl, rfl⟩ := isNumber.exists_read?
  rw [ofNumeral, isRead]
  rfl

/-- A total is read as what it amounts to. -/
theorem ofToken_of_isTotal
    {token : List Char}
    {total : Signed}
    (isTotal : IsTotal token total) :
    ofToken token = ofSigned total := by
  unfold ofToken
  cases isTotal with
  | number isNumber =>
      have noHalf : halfGlyph ∉ token := isNumber.not_mem (by decide)
      have notInfinity : token ≠ [infinityGlyph] := by
        rintro rfl
        exact isNumber.not_mem (by decide) (.head _)
      have notHalf : token ≠ [halfGlyph] := by
        rintro rfl
        exact noHalf (.head _)
      rw [if_neg notInfinity, if_neg notHalf, if_neg (mt List.mem_of_getLast? noHalf),
        ofNumeral_of_isNumber isNumber]
  | @numberAndHalf text negative amount isNumber =>
      have notInfinity : text ++ [halfGlyph] ≠ [infinityGlyph] := by
        intro same
        have last := congrArg List.getLast? same
        rw [List.getLast?_concat] at last
        exact absurd last (by decide)
      have notHalf : text ++ [halfGlyph] ≠ [halfGlyph] :=
        fun same => isNumber.ne_nil (List.self_eq_append_left.1 same.symm)
      rw [if_neg notInfinity, if_neg notHalf, if_pos List.getLast?_concat, List.dropLast_concat,
        ofNumeral_of_isNumber isNumber]
  | half =>
      rw [if_neg (by decide), if_pos rfl]
      rfl

/-- What is read as a numeral beside an amount is a number, or else it is malformed. -/
theorem isNumber_or_ofNumeral_eq
    (start : Amount)
    (text : List Char) :
    (∃ negative amount, IsNumber text negative amount) ∨
      ofNumeral start text = .error .malformed := by
  unfold ofNumeral
  split
  · rename_i numeral isRead
    exact .inl ⟨_, _, .of_read? isRead⟩
  · exact .inr rfl

/-- A token is the sign of infinity or a total, or else it is malformed. -/
theorem isTotal_or_ofToken_eq
    (token : List Char) :
    token = [infinityGlyph] ∨ (∃ total, IsTotal token total) ∨
      ofToken token = .error .malformed := by
  unfold ofToken
  split
  · exact .inl ‹_›
  split
  · rename_i isHalf
    rw [isHalf]
    exact .inr (.inl ⟨_, .half⟩)
  split
  · rename_i last
    rcases isNumber_or_ofNumeral_eq half token.dropLast with ⟨negative, amount, isNumber⟩ | malformed
    · have shape : token.dropLast ++ [halfGlyph] = token := List.dropLast_append_getLast? _ last
      have isTotal := IsTotal.numberAndHalf isNumber
      rw [shape] at isTotal
      exact .inr (.inl ⟨_, isTotal⟩)
    · exact .inr (.inr malformed)
  · rcases isNumber_or_ofNumeral_eq zero token with ⟨negative, amount, isNumber⟩ | malformed
    · exact .inr (.inl ⟨_, .number isNumber⟩)
    · exact .inr (.inr malformed)

/-- A total has a sign and a magnitude. -/
theorem exists_of_isTotal
    {token : List Char}
    {total : Signed}
    (isTotal : IsTotal token total) :
    ∃ negative amount, total = .of negative amount := by
  have sums (start amount : Amount) (negative : Bool) :
      ∃ sign magnitude, start.plusSigned negative amount = .of sign magnitude := by
    unfold plusSigned
    split
    · split
      · exact ⟨_, _, rfl⟩
      · exact ⟨_, _, rfl⟩
    · exact ⟨_, _, rfl⟩
  cases isTotal with
  | number isNumber => exact sums _ _ _
  | numberAndHalf isNumber => exact sums _ _ _
  | half => exact ⟨_, _, rfl⟩

/-- A magnitude with a sign is an amount unless it lies below zero. -/
theorem ofSigned_of
    (negative : Bool)
    (amount : Amount) :
    ofSigned (.of negative amount) =
      if negative = true ∧ amount ≠ .zero then .error (.negative (.of negative amount))
      else .ok amount := by
  cases isPositive : amount.isPositive with
  | false =>
      rw [ofSigned, Signed.amount?, isPositive, Bool.and_false, if_neg Bool.false_ne_true,
        if_neg (not_and_not_right.2 fun _ => isPositive_eq_false_iff.1 isPositive)]
  | true =>
      have notZero : amount ≠ .zero := by
        intro isZero
        rw [isPositive_eq_false_iff.2 isZero] at isPositive
        exact Bool.false_ne_true isPositive
      rw [ofSigned, Signed.amount?, isPositive, Bool.and_true]
      cases negative with
      | false => rfl
      | true => rw [if_pos rfl, if_pos ⟨rfl, notZero⟩]

theorem ofToken_infinity :
    ofToken [infinityGlyph] = .ok .infinite :=
  rfl

/-- A token writes an amount when it is the sign of infinity or a total that is not below zero. -/
theorem ofToken_eq_ok_iff
    {token : List Char}
    {amount : Amount} :
    ofToken token = .ok amount ↔
      token = [infinityGlyph] ∧ amount = .infinite ∨
        ∃ negative, IsTotal token (.of negative amount) ∧ (negative = true → amount = .zero) := by
  constructor
  · intro isRead
    rcases isTotal_or_ofToken_eq token with rfl | ⟨total, isTotal⟩ | malformed
    · exact .inl ⟨rfl, (Except.ok.inj isRead).symm⟩
    · obtain ⟨negative, magnitude, rfl⟩ := exists_of_isTotal isTotal
      rw [ofToken_of_isTotal isTotal, ofSigned_of] at isRead
      split at isRead
      · exact absurd isRead (by simp)
      · rename_i notBelow
        obtain rfl := Except.ok.inj isRead
        exact .inr ⟨negative, isTotal, not_and_not_right.1 notBelow⟩
    · rw [malformed] at isRead
      exact absurd isRead (by simp)
  · rintro (⟨rfl, rfl⟩ | ⟨negative, isTotal, notBelow⟩)
    · exact ofToken_infinity
    · rw [ofToken_of_isTotal isTotal, ofSigned_of, if_neg (not_and_not_right.2 notBelow)]

/-- A token is refused for its sign when it is a total below zero. -/
theorem ofToken_eq_negative_iff
    {token : List Char}
    {value : Signed} :
    ofToken token = .error (.negative value) ↔
      ∃ amount, value = .of true amount ∧ amount ≠ .zero ∧ IsTotal token value := by
  constructor
  · intro refused
    rcases isTotal_or_ofToken_eq token with rfl | ⟨total, isTotal⟩ | malformed
    · rw [ofToken_infinity] at refused
      exact absurd refused (by simp)
    · obtain ⟨negative, magnitude, rfl⟩ := exists_of_isTotal isTotal
      rw [ofToken_of_isTotal isTotal, ofSigned_of] at refused
      split at refused
      · rename_i below
        obtain ⟨rfl, notZero⟩ := below
        obtain rfl := TokenFault.negative.inj (Except.error.inj refused)
        exact ⟨magnitude, rfl, notZero, isTotal⟩
      · exact absurd refused (by simp)
    · rw [malformed] at refused
      exact absurd refused (by simp)
  · rintro ⟨amount, rfl, notZero, isTotal⟩
    rw [ofToken_of_isTotal isTotal, ofSigned_of, if_pos ⟨rfl, notZero⟩]

end Amount

end ManaCost
