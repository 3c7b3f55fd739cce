import Mathlib
import ManaCost.Amount.Layout
import ManaCost.Text.DecimalDigit

namespace ManaCost

/-!
# Written digits

Writers use the ten digits of one script, readers accept the digits of all.  On what writers use,
reading digits gives the number back, also after trailing zeros were stripped.
-/

namespace Text

/-- Every character is one of the ten digits that writers use. -/
def AllDigits
    (digits : List Char) :
    Prop :=
  ∀ character ∈ digits, character.isDigit = true

theorem AllDigits.append
    {left right : List Char}
    (leftDigits : AllDigits left)
    (rightDigits : AllDigits right) :
    AllDigits (left ++ right) := by
  intro character member
  rcases List.mem_append.1 member with inLeft | inRight
  · exact leftDigits character inLeft
  · exact rightDigits character inRight

theorem allDigits_zeros
    (count : Nat) :
    AllDigits (Layout.zeros count) := by
  intro character member
  rw [List.eq_of_mem_replicate member]
  rfl

theorem allDigits_toDigits
    (number : Nat) :
    AllDigits (Nat.toDigits 10 number) :=
  fun _ member => Nat.isDigit_of_mem_toDigits (by omega) (by omega) member

theorem AllDigits.exists_head
    {digits : List Char}
    (allDigits : AllDigits digits)
    (some : digits ≠ []) :
    ∃ first rest, digits = first :: rest ∧ first.isDigit = true := by
  obtain ⟨first, rest, rfl⟩ := List.exists_cons_of_ne_nil some
  exact ⟨first, rest, rfl, allDigits first (.head rest)⟩

theorem digitValue?_of_isDigit
    {character : Char}
    (digit : character.isDigit = true) :
    digitValue? character = some (character.toNat - '0'.toNat) := by
  obtain ⟨least, greatest⟩ := Char.isDigit_iff_toNat.1 digit
  have first : digitZeros = '0'.toNat :: digitZeros.tail := rfl
  have found : ('0'.toNat ≤ character.toNat && character.toNat < '0'.toNat + 10) = true := by
    rw [Bool.and_eq_true, decide_eq_true_eq, decide_eq_true_eq]
    exact ⟨least, Nat.lt_succ_of_le greatest⟩
  rw [digitValue?, first, List.find?_cons, found]
  rfl

theorem isDecimalDigit_of_isDigit
    {character : Char}
    (digit : character.isDigit = true) :
    isDecimalDigit character = true := by
  rw [isDecimalDigit, digitValue?_of_isDigit digit]
  rfl

/-- Every character is a decimal digit of some script. -/
def AreDecimalDigits
    (digits : List Char) :
    Prop :=
  ∀ character ∈ digits, isDecimalDigit character = true

theorem AllDigits.areDecimalDigits
    {digits : List Char}
    (allDigits : AllDigits digits) :
    AreDecimalDigits digits :=
  fun character member => isDecimalDigit_of_isDigit (allDigits character member)

/-- Digits count by the number of digits behind them. -/
theorem digitsValue_append
    (left right : List Char) :
    digitsValue (left ++ right) = digitsValue left * 10 ^ right.length + digitsValue right := by
  have behind (start : Nat) (digits : List Char) :
      digits.foldl (fun value digit => 10 * value + (digitValue? digit).getD 0) start =
        start * 10 ^ digits.length + digitsValue digits := by
    induction digits using List.reverseRecOn with
    | nil =>
        simp [digitsValue]
    | append_singleton others digit inductionHypothesis =>
        rw [digitsValue, List.foldl_append, List.foldl_append, inductionHypothesis, digitsValue,
          List.length_append]
        simp only [List.foldl_cons, List.foldl_nil, List.length_singleton]
        ring
  rw [digitsValue, List.foldl_append]
  exact behind _ right

/-- The digits that writers use are read in the base ten. -/
theorem digitsValue_eq_ofDigitChars
    {digits : List Char}
    (allDigits : AllDigits digits) :
    digitsValue digits = Nat.ofDigitChars 10 digits 0 := by
  rw [digitsValue, Nat.ofDigitChars_eq_foldl]
  apply List.foldl_ext
  intro value character member
  rw [digitValue?_of_isDigit (allDigits character member)]
  rfl

/-- Reading the digits of a number gives the number. -/
theorem digitsValue_toDigits
    (number : Nat) :
    digitsValue (Nat.toDigits 10 number) = number := by
  rw [digitsValue_eq_ofDigitChars (allDigits_toDigits number), Nat.ofDigitChars_ten_toDigits]

theorem digitsValue_zeros
    (count : Nat) :
    digitsValue (Layout.zeros count) = 0 := by
  rw [digitsValue_eq_ofDigitChars (allDigits_zeros count), Layout.zeros,
    Nat.ofDigitChars_replicate_zero, Nat.mul_zero]

/-- Leading zeros do not change a number. -/
theorem digitsValue_zeros_append
    (count : Nat)
    (digits : List Char) :
    digitsValue (Layout.zeros count ++ digits) = digitsValue digits := by
  rw [digitsValue_append, digitsValue_zeros, Nat.zero_mul, Nat.zero_add]

/-- Every trailing zero multiplies a number by ten. -/
theorem digitsValue_append_zeros
    (digits : List Char)
    (count : Nat) :
    digitsValue (digits ++ Layout.zeros count) = digitsValue digits * 10 ^ count := by
  rw [digitsValue_append, digitsValue_zeros, Nat.add_zero, Layout.zeros, List.length_replicate]

end Text

namespace Layout

open Text

/-- Stripping leaves out zeros only. -/
theorem exists_strippedDigits_append_zeros
    (number : Nat) :
    ∃ count, strippedDigits number ++ zeros count = Nat.toDigits 10 number := by
  let digits := (Nat.toDigits 10 number).reverse
  have dropped : digits.takeWhile (· == '0') =
      List.replicate (digits.takeWhile (· == '0')).length '0' := by
    apply List.eq_replicate_of_mem
    intro character member
    simpa using List.mem_takeWhile_imp member
  refine ⟨(digits.takeWhile (· == '0')).length, ?_⟩
  have whole : digits.takeWhile (· == '0') ++ digits.dropWhile (· == '0') = digits :=
    List.takeWhile_append_dropWhile
  have reversed := congrArg List.reverse whole
  rw [List.reverse_append, dropped, List.reverse_replicate, List.reverse_reverse] at reversed
  exact reversed

theorem allDigits_strippedDigits
    (number : Nat) :
    AllDigits (strippedDigits number) := by
  obtain ⟨count, whole⟩ := exists_strippedDigits_append_zeros number
  intro character member
  apply allDigits_toDigits number
  rw [← whole]
  exact List.mem_append_left _ member

/-- A positive number has a digit that is not stripped. -/
theorem strippedDigits_ne_nil
    {number : Nat}
    (positive : 0 < number) :
    strippedDigits number ≠ [] := by
  intro empty
  obtain ⟨count, whole⟩ := exists_strippedDigits_append_zeros number
  have value := digitsValue_toDigits number
  have nothing : digitsValue [] = 0 := rfl
  rw [← whole, digitsValue_append_zeros, empty, nothing,
    Nat.zero_mul] at value
  omega

end Layout

end ManaCost
