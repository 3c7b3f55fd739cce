import Mathlib
import ManaCost.Proofs.Amount.Decimal
import ManaCost.Proofs.Text.Digits
import ManaCost.Symbol.Reader

namespace ManaCost

/-!
# Reading what layouts write

Positional writing is read back to a decimal of the same value, whichever side of the digits the
point is on.  Scientific writing is told apart by its exponent.
-/

namespace Numeral

open Text

/-- Digits in front of a point are taken exactly. -/
theorem span_decimalDigits
    {digits : List Char}
    (areDigits : AreDecimalDigits digits)
    (rest : List Char) :
    (digits ++ '.' :: rest).takeWhile isDecimalDigit = digits ∧
      (digits ++ '.' :: rest).dropWhile isDecimalDigit = '.' :: rest := by
  have point : isDecimalDigit '.' = false := by
    decide +kernel
  constructor
  · rw [List.takeWhile_append_of_pos areDigits, List.takeWhile_cons, point]
    exact List.append_nil digits
  · rw [List.dropWhile_append_of_pos areDigits, List.dropWhile_cons, point]
    rfl

/-- Digits without a point are read as a whole number. -/
theorem readMagnitude?_digits
    {digits : List Char}
    (areDigits : AreDecimalDigits digits)
    (some : digits ≠ []) :
    readMagnitude? digits = .some ⟨digitsValue digits, 0⟩ := by
  have taken : digits.takeWhile isDecimalDigit = digits :=
    List.takeWhile_eq_self_iff.2 areDigits
  have dropped : digits.dropWhile isDecimalDigit = [] :=
    List.dropWhile_eq_nil_iff.2 areDigits
  have notEmpty : digits.isEmpty = false := List.isEmpty_eq_false_iff.2 some
  unfold readMagnitude?
  rw [dropped, taken]
  dsimp only
  rw [notEmpty]
  rfl

/-- Digits with a point among them are read as a fraction. -/
theorem readMagnitude?_point
    {whole fraction : List Char}
    (wholeDigits : AreDecimalDigits whole)
    (fractionDigits : AreDecimalDigits fraction)
    (some : whole ++ fraction ≠ []) :
    readMagnitude? (whole ++ '.' :: fraction) =
      .some ⟨digitsValue (whole ++ fraction), -(fraction.length : Int)⟩ := by
  obtain ⟨taken, dropped⟩ := span_decimalDigits wholeDigits fraction
  have accepted : fraction.all isDecimalDigit = true :=
    List.all_eq_true.2 fractionDigits
  have notEmpty : (whole ++ fraction).isEmpty = false :=
    List.isEmpty_eq_false_iff.2 some
  unfold readMagnitude?
  rw [dropped, taken]
  change (if (fraction.all isDecimalDigit && !(whole ++ fraction).isEmpty) = true then
    Option.some _ else none) = _
  rw [accepted, notEmpty]
  rfl

end Numeral

namespace Layout

open Text

/-- The exponent of the leading digit of a decimal. -/
def leading
    (decimal : Decimal) :
    Int :=
  decimal.exponent + (Nat.toDigits 10 decimal.digits).length - 1

/-- The value of digits whose first has a given exponent. -/
def valueFrom
    (digits : List Char)
    (leading : Int) :
    ℚ :=
  digitsValue digits * 10 ^ (leading + 1 - digits.length)

/-- Trailing zeros only move the point. -/
theorem valueFrom_append_zeros
    (digits : List Char)
    (count : Nat)
    (leading : Int) :
    valueFrom (digits ++ zeros count) leading = valueFrom digits leading := by
  have length : ((digits ++ zeros count).length : Int) = digits.length + count := by
    rw [List.length_append, zeros, List.length_replicate, Nat.cast_add]
  have exponent : leading + 1 - (digits.length : Int) =
      (count : Int) + (leading + 1 - (digits.length + count)) := by
    omega
  unfold valueFrom
  rw [digitsValue_append_zeros, length, exponent, zpow_add₀ (by norm_num),
    zpow_natCast, Nat.cast_mul, Nat.cast_pow, Nat.cast_ofNat, mul_assoc]

/-- Stripping zeros keeps the value of a decimal. -/
theorem valueFrom_strippedDigits
    (decimal : Decimal) :
    valueFrom (strippedDigits decimal.digits) (leading decimal) = decimal.value := by
  obtain ⟨count, whole⟩ := exists_strippedDigits_append_zeros decimal.digits
  have exponent : leading decimal + 1 - ((Nat.toDigits 10 decimal.digits).length : Int) =
      decimal.exponent := by
    unfold leading
    omega
  rw [← valueFrom_append_zeros _ count, whole, valueFrom,
    digitsValue_toDigits, exponent, Decimal.value]

/-- Leading zeros take up the exponents above the first digit. -/
theorem valueFrom_zeros_append
    (digits : List Char)
    (count : Nat)
    (leading : Int) :
    valueFrom (zeros count ++ digits) (leading + count) = valueFrom digits leading := by
  have length : ((zeros count ++ digits).length : Int) = count + digits.length := by
    rw [List.length_append, zeros, List.length_replicate, Nat.cast_add]
  have exponent : leading + (count : Int) + 1 - (count + digits.length) =
      leading + 1 - digits.length := by
    omega
  unfold valueFrom
  rw [digitsValue_zeros_append, length, exponent]

/-- Digits with a point are read as the value that begins in front of the point. -/
theorem exists_readMagnitude?_point
    {whole fraction : List Char}
    (wholeDigits : AllDigits whole)
    (fractionDigits : AllDigits fraction)
    (some : whole ≠ []) :
    ∃ decimal,
      Numeral.readMagnitude? (whole ++ '.' :: fraction) = .some decimal ∧
        decimal.value = valueFrom (whole ++ fraction) (whole.length - 1) := by
  refine ⟨_, Numeral.readMagnitude?_point wholeDigits.areDecimalDigits
    fractionDigits.areDecimalDigits (List.append_ne_nil_of_left_ne_nil some fraction), ?_⟩
  have exponent : (whole.length : Int) - 1 + 1 - ((whole ++ fraction).length : Int) =
      -(fraction.length : Int) := by
    rw [List.length_append]
    omega
  rw [Decimal.value, valueFrom, exponent]

/-- Positional writing reads back to the value of its digits. -/
theorem readMagnitude?_positional
    {digits : List Char}
    (allDigits : AllDigits digits)
    (some : digits ≠ [])
    (leading : Int) :
    ∃ decimal,
      Numeral.readMagnitude? (full.positional digits leading) = .some decimal ∧
        decimal.value = valueFrom digits leading := by
  have length : 0 < digits.length := List.length_pos_iff.2 some
  unfold positional
  split
  · rename_i negative
    -- The point is in front of all digits, with zeros between.
    have fraction := (allDigits_zeros (-leading - 1).toNat).append allDigits
    obtain ⟨decimal, read, value⟩ :=
      exists_readMagnitude?_point (allDigits_zeros 1) fraction (List.cons_ne_nil _ _)
    refine ⟨decimal, read, value.trans ?_⟩
    have first := valueFrom_zeros_append (zeros (-leading - 1).toNat ++ digits) 1 (-1)
    have others := valueFrom_zeros_append digits (-leading - 1).toNat leading
    have exponent : leading + ((-leading - 1).toNat : Int) = -1 := by
      omega
    rw [exponent] at others
    exact first.trans others
  · rename_i nonnegative
    dsimp only
    split
    · rename_i short
      -- The point is behind all digits, with zeros between and one zero after it.
      have zerosBetween := allDigits_zeros (leading.toNat + 1 - digits.length)
      obtain ⟨decimal, read, value⟩ :=
        exists_readMagnitude?_point (allDigits.append zerosBetween) (allDigits_zeros 1)
          (List.append_ne_nil_of_left_ne_nil some _)
      refine ⟨decimal, read, value.trans ?_⟩
      have exponent : ((digits ++ zeros (leading.toNat + 1 - digits.length)).length : Int) - 1 =
          leading := by
        rw [List.length_append, zeros, List.length_replicate]
        omega
      rw [exponent, valueFrom_append_zeros, valueFrom_append_zeros]
    · rename_i long
      -- The point is among the digits.
      have before : AllDigits (digits.take (leading.toNat + 1)) :=
        fun character member => allDigits character (List.mem_of_mem_take member)
      have after : AllDigits (digits.drop (leading.toNat + 1)) :=
        fun character member => allDigits character (List.mem_of_mem_drop member)
      have taken : (digits.take (leading.toNat + 1)).length = leading.toNat + 1 :=
        List.length_take_of_le (by omega)
      obtain ⟨decimal, read, value⟩ :=
        exists_readMagnitude?_point before after (List.ne_nil_of_length_pos (by omega))
      refine ⟨decimal, read, value.trans ?_⟩
      have exponent : ((digits.take (leading.toNat + 1)).length : Int) - 1 = leading := by
        omega
      rw [exponent, List.take_append_drop]

theorem isDigit_or_eq_of_mem_positional
    {digits : List Char}
    (allDigits : AllDigits digits)
    (leading : Int)
    {character : Char}
    (member : character ∈ full.positional digits leading) :
    character.isDigit = true ∨ character = '.' := by
  unfold positional at member
  split at member
  · rw [List.mem_append, List.mem_cons, List.mem_cons] at member
    rcases member with (rfl | rfl | inZeros) | inDigits
    · exact .inl rfl
    · exact .inr rfl
    · exact .inl (allDigits_zeros _ character inZeros)
    · exact .inl (allDigits character inDigits)
  · dsimp only at member
    split at member
    · rw [List.mem_append, List.mem_append] at member
      rcases member with (inDigits | inZeros) | inTail
      · exact .inl (allDigits character inDigits)
      · exact .inl (allDigits_zeros _ character inZeros)
      · rcases List.mem_cons.1 inTail with rfl | inTail
        · exact .inr rfl
        · rw [List.mem_singleton.1 inTail]
          exact .inl rfl
    · rw [List.mem_append, List.mem_cons] at member
      rcases member with inBefore | rfl | inAfter
      · exact .inl (allDigits character (List.mem_of_mem_take inBefore))
      · exact .inr rfl
      · exact .inl (allDigits character (List.mem_of_mem_drop inAfter))

/-- The number that an exponent with its sign writes. -/
def exponentValue : List Char → Int
  | [] => 0
  | sign :: digits => if sign = '-' then -(digitsValue digits : Int) else digitsValue digits

/-- An exponent is read back. -/
theorem exponentValue_exponentText
    (exponent : Int) :
    exponentValue (exponentText exponent) = exponent := by
  have value : digitsValue (zeros (2 - (Nat.toDigits 10 exponent.natAbs).length) ++
      Nat.toDigits 10 exponent.natAbs) = exponent.natAbs := by
    rw [digitsValue_zeros_append, digitsValue_toDigits]
  unfold exponentText
  dsimp only
  rw [List.cons_append, exponentValue, value]
  split
  · rw [if_pos rfl]
    omega
  · rw [if_neg (by decide)]
    omega

/-- The decimal that a positional or scientific text writes. -/
def readWritten?
    (text : List Char) :
    Option Decimal :=
  match text.dropWhile (· != 'e') with
  | [] => Numeral.readMagnitude? text
  | _ :: exponent =>
      (Numeral.readMagnitude? (text.takeWhile (· != 'e'))).map fun mantissa =>
        ⟨mantissa.digits, mantissa.exponent + exponentValue exponent⟩

theorem readWritten?_eq
    {text : List Char}
    (noExponent : ∀ character ∈ text, character ≠ 'e') :
    readWritten? text = Numeral.readMagnitude? text := by
  have dropped : text.dropWhile (· != 'e') = [] := by
    rw [List.dropWhile_eq_nil_iff]
    intro character member
    exact bne_iff_ne.2 (noExponent character member)
  rw [readWritten?, dropped]

/-- Shifting the first digit multiplies a value. -/
theorem valueFrom_zero_mul
    (digits : List Char)
    (leading : Int) :
    valueFrom digits 0 * 10 ^ leading = valueFrom digits leading := by
  have exponent : leading + 1 - (digits.length : Int) = 0 + 1 - digits.length + leading := by
    omega
  rw [valueFrom, valueFrom, exponent, zpow_add₀ (by norm_num), mul_assoc]

/-- What stands in front of the exponent of scientific writing. -/
def mantissa
    (digits : List Char) :
    List Char :=
  digits.take 1 ++ if digits.length ≤ 1 then [] else '.' :: digits.drop 1

/-- The mantissa reads back to the value of its digits from the first on. -/
theorem exists_readMagnitude?_mantissa
    {digits : List Char}
    (allDigits : AllDigits digits)
    (some : digits ≠ []) :
    ∃ decimal,
      Numeral.readMagnitude? (mantissa digits) = .some decimal ∧
        decimal.value = valueFrom digits 0 := by
  unfold mantissa
  have length : 0 < digits.length := List.length_pos_iff.2 some
  split
  · rename_i short
    have one : (digits.length : Int) = 1 := by
      omega
    rw [List.append_nil, List.take_of_length_le short]
    refine ⟨_, Numeral.readMagnitude?_digits allDigits.areDecimalDigits some, ?_⟩
    rw [Decimal.value, valueFrom, one]
    rfl
  · rename_i long
    have before : AllDigits (digits.take 1) :=
      fun character member => allDigits character (List.mem_of_mem_take member)
    have after : AllDigits (digits.drop 1) :=
      fun character member => allDigits character (List.mem_of_mem_drop member)
    have taken : (digits.take 1).length = 1 := List.length_take_of_le length
    obtain ⟨decimal, read, value⟩ :=
      exists_readMagnitude?_point before after (List.ne_nil_of_length_pos (by omega))
    refine ⟨decimal, read, value.trans ?_⟩
    rw [taken, List.take_append_drop]
    rfl

theorem isDigit_or_eq_of_mem_mantissa
    {digits : List Char}
    (allDigits : AllDigits digits)
    {character : Char}
    (member : character ∈ mantissa digits) :
    character.isDigit = true ∨ character = '.' := by
  rcases List.mem_append.1 member with inFirst | inRest
  · exact .inl (allDigits character (List.mem_of_mem_take inFirst))
  · split at inRest
    · exact absurd inRest List.not_mem_nil
    · rcases List.mem_cons.1 inRest with rfl | inRest
      · exact .inr rfl
      · exact .inl (allDigits character (List.mem_of_mem_drop inRest))

theorem ne_exponentSign
    {character : Char}
    (plain : character.isDigit = true ∨ character = '.') :
    character ≠ 'e' := by
  rintro rfl
  revert plain
  decide

/-- Scientific writing reads back to the value of its digits. -/
theorem readWritten?_scientific
    {digits : List Char}
    (allDigits : AllDigits digits)
    (some : digits ≠ [])
    (leading : Int) :
    ∃ decimal,
      readWritten? (scientific digits leading) = .some decimal ∧
        decimal.value = valueFrom digits leading := by
  have shape : scientific digits leading = mantissa digits ++ 'e' :: exponentText leading := rfl
  have passed : ∀ character ∈ mantissa digits, (character != 'e') = true :=
    fun _ member => bne_iff_ne.2 (ne_exponentSign (isDigit_or_eq_of_mem_mantissa allDigits member))
  have taken : (mantissa digits ++ 'e' :: exponentText leading).takeWhile (· != 'e') =
      mantissa digits := by
    rw [List.takeWhile_append_of_pos passed, List.takeWhile_cons_of_neg (by decide),
      List.append_nil]
  have dropped : (mantissa digits ++ 'e' :: exponentText leading).dropWhile (· != 'e') =
      'e' :: exponentText leading := by
    rw [List.dropWhile_append_of_pos passed, List.dropWhile_cons_of_neg (by decide)]
  obtain ⟨decimal, read, value⟩ := exists_readMagnitude?_mantissa allDigits some
  refine ⟨⟨decimal.digits, decimal.exponent + leading⟩, ?_, ?_⟩
  · rw [shape, readWritten?, dropped, taken, read]
    dsimp only [Option.map_some]
    rw [exponentValue_exponentText]
  · rw [← valueFrom_zero_mul, ← value, Decimal.value, Decimal.value, zpow_add₀ (by norm_num),
      mul_assoc]

/-- Small and large decimals are written with an exponent, all others are not. -/
theorem write_full
    (decimal : Decimal) :
    full.write decimal =
      if -4 ≤ leading decimal ∧ leading decimal < 16 then
        full.positional (strippedDigits decimal.digits) (leading decimal)
      else
        scientific (strippedDigits decimal.digits) (leading decimal) :=
  rfl

/-- What is written in full reads back to a decimal of the same value. -/
theorem exists_readWritten?_write
    {decimal : Decimal}
    (positive : 0 < decimal.digits) :
    ∃ read,
      readWritten? (full.write decimal) = some read ∧ read.value = decimal.value := by
  have allDigits := allDigits_strippedDigits decimal.digits
  have notEmpty := strippedDigits_ne_nil positive
  rw [write_full, ← valueFrom_strippedDigits]
  split
  · rw [readWritten?_eq fun _ member =>
      ne_exponentSign (isDigit_or_eq_of_mem_positional allDigits _ member)]
    exact readMagnitude?_positional allDigits notEmpty _
  · exact readWritten?_scientific allDigits notEmpty _

/-- The signs that numerals have beside digits. -/
def signs : List Char :=
  ['.', 'e', '+', '-']

theorem isDigit_or_mem_signs_of_mem_exponentText
    {exponent : Int}
    {character : Char}
    (member : character ∈ exponentText exponent) :
    character.isDigit = true ∨ character ∈ signs := by
  unfold exponentText at member
  dsimp only at member
  rw [List.mem_append, List.mem_cons] at member
  rcases member with (rfl | inZeros) | inDigits
  · refine .inr ?_
    split <;> decide
  · exact .inl (allDigits_zeros _ character inZeros)
  · exact .inl (allDigits_toDigits _ character inDigits)

/-- A numeral has digits and signs only. -/
theorem isDigit_or_mem_signs_of_mem_write
    {decimal : Decimal}
    {character : Char}
    (member : character ∈ full.write decimal) :
    character.isDigit = true ∨ character ∈ signs := by
  have allDigits := allDigits_strippedDigits decimal.digits
  have fromPlain (plain : character.isDigit = true ∨ character = '.') :
      character.isDigit = true ∨ character ∈ signs := by
    rcases plain with digit | rfl
    · exact .inl digit
    · exact .inr (by decide)
  rw [write_full] at member
  split at member
  · exact fromPlain (isDigit_or_eq_of_mem_positional allDigits _ member)
  · rcases List.mem_append.1 member with inMantissa | inExponent
    · exact fromPlain (isDigit_or_eq_of_mem_mantissa allDigits inMantissa)
    · rcases List.mem_cons.1 inExponent with rfl | inExponent
      · exact .inr (by decide)
      · exact isDigit_or_mem_signs_of_mem_exponentText inExponent

/-- A numeral begins with a digit. -/
theorem head?_write
    {decimal : Decimal}
    (positive : 0 < decimal.digits) :
    ∃ first rest, full.write decimal = first :: rest ∧ first.isDigit = true := by
  have allDigits := allDigits_strippedDigits decimal.digits
  obtain ⟨first, others, shape, digit⟩ := allDigits.exists_head (strippedDigits_ne_nil positive)
  rw [write_full, shape]
  split
  · unfold positional
    split
    · exact ⟨'0', _, rfl, rfl⟩
    · dsimp only
      split
      · exact ⟨first, _, rfl, digit⟩
      · exact ⟨first, _, rfl, digit⟩
  · exact ⟨first, _, rfl, digit⟩

/-- The leading exponent of a positive decimal does not exceed its value. -/
theorem zpow_leading_le
    {decimal : Decimal}
    (positive : 0 < decimal.digits) :
    (10 : ℚ) ^ leading decimal ≤ decimal.value := by
  have length : 0 < (Nat.toDigits 10 decimal.digits).length :=
    List.length_pos_iff.2 Nat.toDigits_ne_nil
  have least : 10 ^ ((Nat.toDigits 10 decimal.digits).length - 1) ≤ decimal.digits := by
    by_contra small
    rcases Nat.eq_zero_or_pos ((Nat.toDigits 10 decimal.digits).length - 1) with none | some
    · rw [none, pow_zero] at small
      omega
    · have shorter := (Nat.length_toDigits_le_iff (by omega) some).2 (not_le.1 small)
      omega
  have exponent : leading decimal =
      ((Nat.toDigits 10 decimal.digits).length - 1 : Nat) + decimal.exponent := by
    unfold leading
    omega
  rw [exponent, zpow_add₀ (by norm_num), zpow_natCast, Decimal.value]
  exact mul_le_mul_of_nonneg_right (by exact_mod_cast least) (by positivity)

/-- The value of a decimal is below the next exponent. -/
theorem value_lt_zpow_leading
    (decimal : Decimal) :
    decimal.value < (10 : ℚ) ^ (leading decimal + 1) := by
  have length : 0 < (Nat.toDigits 10 decimal.digits).length :=
    List.length_pos_iff.2 Nat.toDigits_ne_nil
  have most : decimal.digits < 10 ^ (Nat.toDigits 10 decimal.digits).length :=
    (Nat.length_toDigits_le_iff (by omega) length).1 (Nat.le_refl _)
  have exponent : leading decimal + 1 =
      ((Nat.toDigits 10 decimal.digits).length : Int) + decimal.exponent := by
    unfold leading
    omega
  rw [exponent, zpow_add₀ (by norm_num), zpow_natCast, Decimal.value]
  exact mul_lt_mul_of_pos_right (by exact_mod_cast most) (by positivity)

end Layout

end ManaCost
