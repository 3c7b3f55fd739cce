import Mathlib
import ManaCost.Proofs.Amount.Token

namespace ManaCost.Amount

/-!
# Amounts that read back

The reader takes positional numerals only.  Tokens of whole numbers and halves are such numerals,
and so are those of all other amounts that are not too small: `ofToken_token` says that zero and
every amount from one ten-thousandth on is read back from its token.
-/

open Text

/-- The least amount whose numeral is positional. -/
def tenThousandth : Amount :=
  .ofDecimal 1 (-4)

/-- An amount is legible when it is zero or reaches one ten-thousandth. -/
def IsLegible
    (amount : Amount) :
    Prop :=
  amount = .zero ∨ amount.isLess tenThousandth = false

instance (amount : Amount) : Decidable amount.IsLegible :=
  inferInstanceAs (Decidable (_ ∨ _))

theorem tenThousandth_eq :
    tenThousandth =
      .finite (roundQuotient stepsPerMana 10000)
        (isDouble_of_roundQuotient _ _ (by decide +kernel)) := by
  decide +kernel

/-- The exact digits of an amount from one ten-thousandth on. -/
theorem pow_le_exactUnits
    {steps : Nat}
    {isDouble : IsDouble steps}
    (reached : (finite steps isDouble).isLess tenThousandth = false) :
    10 ^ 1070 ≤ exactUnits steps := by
  have least : 10 ^ 1070 ≤ exactUnits (roundQuotient stepsPerMana 10000) := by
    decide +kernel
  rw [← Bool.not_eq_true, isLess_iff, tenThousandth_eq, steps_finite, steps_finite,
    Nat.cast_lt, not_lt] at reached
  exact least.trans (Nat.mul_le_mul_right _ reached)

/-- The numeral of a legible amount that is not whole is positional. -/
theorem leading_shortest
    {steps : Nat}
    {isDouble : IsDouble steps}
    (positive : 0 < steps)
    (notWhole : ¬stepsPerMana ∣ steps)
    (reached : (finite steps isDouble).isLess tenThousandth = false) :
    -4 ≤ Layout.leading (shortest steps isDouble) ∧
      Layout.leading (shortest steps isDouble) < 16 := by
  have digits := shortest_digits_pos isDouble positive
  constructor
  · have least := (le_value_shortest isDouble (pow_le_exactUnits reached)).trans_lt
      (Layout.value_lt_zpow_leading _)
    have exponents := (zpow_lt_zpow_iff_right₀ (by norm_num)).1 least
    omega
  · have most := (Layout.zpow_leading_le digits).trans_lt
      (value_lt_of_nearest (nearest_shortest steps isDouble)
        (lt_exactLimit_of_not_dvd isDouble notWhole))
    have exponent : (10 : ℚ) ^ 16 = 10 ^ (16 : Int) := rfl
    rw [exponent] at most
    exact (zpow_lt_zpow_iff_right₀ (by norm_num)).1 most

/-- A magnitude without a sign is added to where reading starts. -/
theorem ofNumeral_of_readMagnitude?
    {text : List Char}
    {decimal : Decimal}
    (start : Amount)
    (unsigned : ∀ rest, text ≠ '-' :: rest)
    (read : Numeral.readMagnitude? text = some decimal) :
    ofNumeral start text = .ok (start.add decimal.nearest) := by
  have numeral : Numeral.read? text = some ⟨false, decimal⟩ := by
    unfold Numeral.read?
    split
    · exact absurd rfl (unsigned _)
    · rw [read]
      rfl
  rw [ofNumeral, numeral]
  rfl

theorem ne_minus_cons
    {first : Char}
    {others : List Char}
    (digit : first.isDigit = true)
    (rest : List Char) :
    first :: others ≠ '-' :: rest := by
  intro same
  rw [(List.cons.inj same).1] at digit
  exact absurd digit (by decide)

/-- A token that does not end in the sign of one half is a numeral. -/
theorem ofToken_of_plain
    {text : List Char}
    (plain : ∀ character ∈ text, character.isDigit = true ∨ character ∈ Layout.signs) :
    ofToken text = ofNumeral zero text := by
  have notHalf : text ≠ [halfGlyph] := by
    rintro rfl
    exact getLast?_ne_halfGlyph plain rfl
  rw [ofToken, if_neg (ne_infinityGlyph plain), if_neg notHalf,
    if_neg (getLast?_ne_halfGlyph plain)]

theorem ofNumeral_toDigits
    (start : Amount)
    {whole : Nat}
    (isDouble : IsDouble (whole * stepsPerMana)) :
    ofNumeral start (Nat.toDigits 10 whole) =
      .ok (start.add (.finite (whole * stepsPerMana) isDouble)) := by
  obtain ⟨first, rest, digits, digit⟩ :=
    (allDigits_toDigits whole).exists_head Nat.toDigits_ne_nil
  have read : Numeral.readMagnitude? (Nat.toDigits 10 whole) = some ⟨whole, 0⟩ := by
    rw [Numeral.readMagnitude?_digits (allDigits_toDigits whole).areDecimalDigits
      Nat.toDigits_ne_nil,
      digitsValue_toDigits]
  have unsigned : ∀ rest, Nat.toDigits 10 whole ≠ '-' :: rest := by
    rw [digits]
    exact ne_minus_cons digit
  rw [ofNumeral_of_readMagnitude? start unsigned read, nearest_whole isDouble]

/-- A written whole number and a half is read as one. -/
theorem ofToken_append_halfGlyph
    {whole : Nat}
    (isDouble : IsDouble (whole * stepsPerMana + stepsPerHalf)) :
    ofToken ((if whole = 0 then [] else Nat.toDigits 10 whole) ++ [halfGlyph]) =
      .ok (.finite _ isDouble) := by
  obtain ⟨wholeDouble, sum⟩ := isDouble_of_half isDouble
  split
  · rename_i none
    have alone : half = half.add (.ofSteps (whole * stepsPerMana)) := by
      rw [none, Nat.zero_mul, ofSteps_zero, add_comm, zero_add]
    rw [← sum, ← alone]
    rfl
  · have last : (Nat.toDigits 10 whole ++ [halfGlyph]).getLast? = some halfGlyph :=
      List.getLast?_concat
    have notInfinity : Nat.toDigits 10 whole ++ [halfGlyph] ≠ [infinityGlyph] := by
      intro equal
      rw [equal] at last
      exact absurd last (by decide)
    have notHalf : Nat.toDigits 10 whole ++ [halfGlyph] ≠ [halfGlyph] := by
      intro equal
      exact Nat.toDigits_ne_nil (List.append_left_eq_self.1 equal)
    rw [ofToken, if_neg notInfinity, if_neg notHalf, if_pos last, List.dropLast_concat,
      ofNumeral_toDigits half wholeDouble, ← ofSteps_of_isDouble wholeDouble, sum]

/-- A legible amount is read back from its token. -/
theorem ofToken_token
    {amount : Amount}
    (legible : amount.IsLegible) :
    ofToken amount.token = .ok amount := by
  rcases amount.token_cases with ⟨same, shape⟩ | ⟨whole, isDouble, same, shape⟩ |
    ⟨whole, isDouble, same, shape⟩ | ⟨steps, isDouble, same, positive, notWhole, shape⟩
  · rw [shape, same]
    rfl
  · have plain : ∀ character ∈ Nat.toDigits 10 whole,
        character.isDigit = true ∨ character ∈ Layout.signs :=
      fun character member => .inl (allDigits_toDigits whole character member)
    rw [shape, ofToken_of_plain plain, ofNumeral_toDigits zero isDouble, zero_add, same]
  · rw [shape, same]
    exact ofToken_append_halfGlyph isDouble
  · have plain : ∀ character ∈ Layout.full.write (shortest steps isDouble),
        character.isDigit = true ∨ character ∈ Layout.signs :=
      fun _ => Layout.isDigit_or_mem_signs_of_mem_write
    have reached : (finite steps isDouble).isLess tenThousandth = false := by
      rcases legible with nothing | reached
      · have none : steps = 0 := Amount.finite.inj (same.symm.trans nothing)
        omega
      · rwa [← same]
    have digits := shortest_digits_pos isDouble positive
    have positional : Layout.full.write (shortest steps isDouble) =
        Layout.full.positional (Layout.strippedDigits (shortest steps isDouble).digits)
          (Layout.leading (shortest steps isDouble)) := by
      rw [Layout.write_full, if_pos (leading_shortest positive notWhole reached)]
    obtain ⟨decimal, read, value⟩ :=
      Layout.readMagnitude?_positional (Layout.allDigits_strippedDigits _)
        (Layout.strippedDigits_ne_nil digits) (Layout.leading (shortest steps isDouble))
    obtain ⟨first, rest, written, digit⟩ := Layout.head?_write digits
    have unsigned : ∀ rest, Layout.full.write (shortest steps isDouble) ≠ '-' :: rest := by
      rw [written]
      exact ne_minus_cons digit
    rw [← positional] at read
    rw [Layout.valueFrom_strippedDigits] at value
    rw [shape, ofToken_of_plain plain, ofNumeral_of_readMagnitude? zero unsigned read, zero_add,
      Decimal.nearest_eq_of_value_eq value, nearest_shortest, same]

end ManaCost.Amount
