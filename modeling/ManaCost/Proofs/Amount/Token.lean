import Mathlib
import ManaCost.Proofs.Amount.Numeral

namespace ManaCost.Amount

/-!
# Tokens of amounts

The token of an amount has one of four forms: the sign of infinity, a whole number, a whole number
and a half, or a numeral in full.  The main statement is `token_injective`: no two amounts have one
token, however the numeral lays out its digits.
-/

open Text

/-- A double that is not a whole number of mana is below the limit of exact amounts. -/
theorem lt_exactLimit_of_not_dvd
    {steps : Nat}
    (isDouble : IsDouble steps)
    (notWhole : ¬stepsPerMana ∣ steps) :
    steps < exactLimit := by
  by_contra large
  rw [not_lt] at large
  apply notWhole
  obtain ⟨shift, unit, limit⟩ :
      ∃ shift, stepsPerMana = 2 ^ shift ∧ exactLimit = 2 ^ (shift + 52) :=
    ⟨1074, by decide +kernel, by decide +kernel⟩
  rw [limit] at large
  rw [unit]
  exact two_pow_dvd_of_le shift isDouble.1 large

/-- Whole numbers of mana that are doubles are read as what they are. -/
theorem nearest_whole
    {whole : Nat}
    (isDouble : IsDouble (whole * stepsPerMana)) :
    Decimal.nearest ⟨whole, 0⟩ = .finite (whole * stepsPerMana) isDouble := by
  have nearest := Decimal.nearest_fraction whole 0
  rw [Nat.cast_zero, neg_zero, pow_zero] at nearest
  rw [nearest]
  exact ofSteps_of_isDouble isDouble

/-- Half a mana and half of that again make a mana. -/
theorem stepsPerMana_eq :
    stepsPerMana = 2 * stepsPerHalf := by
  decide +kernel

/-- Where a whole number and a half is a double, the whole number is one too. -/
theorem isDouble_of_half
    {whole : Nat}
    (isDouble : IsDouble (whole * stepsPerMana + stepsPerHalf)) :
    IsDouble (whole * stepsPerMana) ∧
      half.add (.ofSteps (whole * stepsPerMana)) = .finite _ isDouble := by
  have halvesPositive : 0 < stepsPerHalf := by
    decide +kernel
  have notWhole : ¬stepsPerMana ∣ whole * stepsPerMana + stepsPerHalf := by
    intro divides
    have rest := (Nat.dvd_add_right (Nat.dvd_mul_left _ _)).1 divides
    have bound := Nat.le_of_dvd halvesPositive rest
    rw [stepsPerMana_eq] at bound
    omega
  have small := lt_exactLimit_of_not_dvd isDouble notWhole
  rw [exactLimit_eq, stepsPerMana_eq] at small
  have shape : whole * (2 * stepsPerHalf) + stepsPerHalf = (2 * whole + 1) * stepsPerHalf := by
    ring
  rw [shape] at small
  have few := Nat.lt_of_mul_lt_mul_right small
  have double : IsDouble (whole * stepsPerMana) := by
    rw [stepsPerMana_eq, ← Nat.mul_assoc]
    exact isDouble_halves (by omega)
  refine ⟨double, ?_⟩
  rw [ofSteps_of_isDouble double]
  obtain ⟨halfDouble, isHalf⟩ := eq_finite_of_steps steps_half
  rw [isHalf]
  change ofSteps (stepsPerHalf + whole * stepsPerMana) = _
  rw [Nat.add_comm, ofSteps_of_isDouble isDouble]

/-- The four forms of a token. -/
theorem token_cases
    (amount : Amount) :
    (amount = .infinite ∧ amount.token = [infinityGlyph]) ∨
      (∃ whole isDouble, amount = .finite (whole * stepsPerMana) isDouble ∧
        amount.token = Nat.toDigits 10 whole) ∨
      (∃ whole isDouble, amount = .finite (whole * stepsPerMana + stepsPerHalf) isDouble ∧
        amount.token = (if whole = 0 then [] else Nat.toDigits 10 whole) ++ [halfGlyph]) ∨
      ∃ steps isDouble, amount = .finite steps isDouble ∧ 0 < steps ∧ ¬stepsPerMana ∣ steps ∧
        amount.token = Layout.full.write (shortest steps isDouble) := by
  cases amount with
  | infinite => exact .inl ⟨rfl, rfl⟩
  | finite steps isDouble =>
      have parts := Nat.div_add_mod' steps stepsPerMana
      refine .inr ?_
      unfold token
      dsimp only
      split
      · rename_i none
        rw [none, Nat.add_zero] at parts
        refine .inl ⟨steps / stepsPerMana, ?_⟩
        rw [parts]
        exact ⟨isDouble, rfl, rfl⟩
      · rename_i some
        split
        · rename_i isHalf
          have rest : steps % stepsPerMana = stepsPerHalf := by
            rw [stepsPerMana_eq] at isHalf ⊢
            omega
          rw [rest] at parts
          refine .inr (.inl ⟨steps / stepsPerMana, ?_⟩)
          rw [parts]
          exact ⟨isDouble, rfl, rfl⟩
        · have notWhole : ¬stepsPerMana ∣ steps := mt Nat.mod_eq_zero_of_dvd some
          have positive : 0 < steps := by
            rw [Nat.pos_iff_ne_zero]
            rintro rfl
            exact notWhole (Nat.dvd_zero _)
          obtain ⟨others, rfl⟩ : ∃ others, steps = others + 1 := ⟨steps - 1, by omega⟩
          exact .inr (.inr ⟨others + 1, isDouble, rfl, positive, notWhole, rfl⟩)

/-- The characters of tokens are digits, signs of numerals and the two glyphs. -/
theorem isDigit_or_mem_of_mem_token
    {amount : Amount}
    {character : Char}
    (member : character ∈ amount.token) :
    character.isDigit = true ∨ character ∈ Layout.signs ++ [halfGlyph, infinityGlyph] := by
  rcases amount.token_cases with ⟨-, shape⟩ | ⟨whole, -, -, shape⟩ | ⟨whole, -, -, shape⟩ |
    ⟨steps, isDouble, -, -, -, shape⟩
  · rw [shape, List.mem_singleton] at member
    rw [member]
    exact .inr (by decide)
  · rw [shape] at member
    exact .inl (allDigits_toDigits whole character member)
  · rw [shape, List.mem_append, List.mem_singleton] at member
    rcases member with inWhole | rfl
    · split at inWhole
      · exact absurd inWhole List.not_mem_nil
      · exact .inl (allDigits_toDigits whole character inWhole)
    · exact .inr (by decide)
  · rw [shape] at member
    rcases Layout.isDigit_or_mem_signs_of_mem_write member with digit | sign
    · exact .inl digit
    · exact .inr (List.mem_append_left _ sign)

/-- A token begins with a digit or is a glyph. -/
theorem head_token
    (amount : Amount) :
    ∃ first rest, amount.token = first :: rest ∧
      (first.isDigit = true ∨ first = halfGlyph ∨ first = infinityGlyph) := by
  rcases amount.token_cases with ⟨-, shape⟩ | ⟨whole, -, -, shape⟩ | ⟨whole, -, -, shape⟩ |
    ⟨steps, isDouble, -, positive, -, shape⟩
  · exact ⟨_, _, shape, .inr (.inr rfl)⟩
  · obtain ⟨first, rest, digits, digit⟩ :=
      (allDigits_toDigits whole).exists_head Nat.toDigits_ne_nil
    exact ⟨first, rest, shape.trans digits, .inl digit⟩
  · rw [shape]
    split
    · exact ⟨halfGlyph, [], rfl, .inr (.inl rfl)⟩
    · obtain ⟨first, rest, digits, digit⟩ :=
        (allDigits_toDigits whole).exists_head Nat.toDigits_ne_nil
      rw [digits]
      exact ⟨first, _, rfl, .inl digit⟩
  · obtain ⟨first, rest, written, digit⟩ :=
      Layout.head?_write (shortest_digits_pos isDouble positive)
    exact ⟨first, rest, shape.trans written, .inl digit⟩

/-- The amount that a token stands for, in whatever notation its numeral is. -/
def ofWritten
    (token : List Char) :
    Amount :=
  let numeral (text : List Char) : Amount :=
    ((Layout.readWritten? text).map Decimal.nearest).getD .zero
  if token = [infinityGlyph] then
    .infinite
  else if token.getLast? = some halfGlyph then
    half.add (numeral token.dropLast)
  else
    numeral token

theorem getLast?_ne_halfGlyph
    {text : List Char}
    (plain : ∀ character ∈ text, character.isDigit = true ∨ character ∈ Layout.signs) :
    text.getLast? ≠ some halfGlyph := by
  intro last
  have member := List.mem_of_getLast? last
  have excluded : ¬(halfGlyph.isDigit = true ∨ halfGlyph ∈ Layout.signs) := by
    decide
  exact excluded (plain halfGlyph member)

theorem ne_infinityGlyph
    {text : List Char}
    (plain : ∀ character ∈ text, character.isDigit = true ∨ character ∈ Layout.signs) :
    text ≠ [infinityGlyph] := by
  rintro rfl
  have excluded : ¬(infinityGlyph.isDigit = true ∨ infinityGlyph ∈ Layout.signs) := by
    decide
  exact excluded (plain infinityGlyph (.head _))

/-- A written whole number is read as one. -/
theorem readWritten?_toDigits
    (whole : Nat) :
    Layout.readWritten? (Nat.toDigits 10 whole) = some ⟨whole, 0⟩ := by
  have noExponent : ∀ character ∈ Nat.toDigits 10 whole, character ≠ 'e' :=
    fun character member =>
      Layout.ne_exponentSign (.inl (allDigits_toDigits whole character member))
  rw [Layout.readWritten?_eq noExponent,
    Numeral.readMagnitude?_digits (allDigits_toDigits whole).areDecimalDigits
      Nat.toDigits_ne_nil,
    digitsValue_toDigits]

/-- What stands in front of the sign of one half is read as a whole number, and nothing as zero. -/
theorem readWritten?_beforeHalf
    {whole : Nat}
    (isDouble : IsDouble (whole * stepsPerMana)) :
    ((Layout.readWritten? (if whole = 0 then [] else Nat.toDigits 10 whole)).map
      Decimal.nearest).getD .zero = .ofSteps (whole * stepsPerMana) := by
  split
  · rename_i none
    rw [none, Nat.zero_mul, ofSteps_zero]
    rfl
  · rw [readWritten?_toDigits, Option.map_some, Option.getD_some, nearest_whole isDouble,
      ofSteps_of_isDouble isDouble]

/-- Every token stands for the amount that it was written for. -/
theorem ofWritten_token
    (amount : Amount) :
    ofWritten amount.token = amount := by
  unfold ofWritten
  dsimp only
  rcases amount.token_cases with ⟨same, shape⟩ | ⟨whole, isDouble, same, shape⟩ |
    ⟨whole, isDouble, same, shape⟩ | ⟨steps, isDouble, same, positive, -, shape⟩
  · rw [shape, if_pos rfl, same]
  · have plain : ∀ character ∈ Nat.toDigits 10 whole,
        character.isDigit = true ∨ character ∈ Layout.signs :=
      fun character member => .inl (allDigits_toDigits whole character member)
    rw [shape, if_neg (ne_infinityGlyph plain), if_neg (getLast?_ne_halfGlyph plain),
      readWritten?_toDigits, Option.map_some, Option.getD_some, nearest_whole isDouble, same]
  · have last : ((if whole = 0 then [] else Nat.toDigits 10 whole) ++ [halfGlyph]).getLast? =
        some halfGlyph :=
      List.getLast?_concat
    have notInfinity : (if whole = 0 then [] else Nat.toDigits 10 whole) ++ [halfGlyph] ≠
        [infinityGlyph] := by
      intro equal
      rw [equal] at last
      exact absurd last (by decide)
    rw [shape, if_neg notInfinity, if_pos last, List.dropLast_concat,
      readWritten?_beforeHalf (isDouble_of_half isDouble).1, (isDouble_of_half isDouble).2, same]
  · have plain : ∀ character ∈ Layout.full.write (shortest steps isDouble),
        character.isDigit = true ∨ character ∈ Layout.signs :=
      fun _ => Layout.isDigit_or_mem_signs_of_mem_write
    obtain ⟨decimal, read, value⟩ :=
      Layout.exists_readWritten?_write (shortest_digits_pos isDouble positive)
    rw [shape, if_neg (ne_infinityGlyph plain), if_neg (getLast?_ne_halfGlyph plain), read,
      Option.map_some, Option.getD_some, Decimal.nearest_eq_of_value_eq value,
      nearest_shortest, same]

/-- No two amounts have one token. -/
theorem token_injective
    {left right : Amount}
    (same : left.token = right.token) :
    left = right := by
  rw [← ofWritten_token left, same, ofWritten_token]

end ManaCost.Amount
