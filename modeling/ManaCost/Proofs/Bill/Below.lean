import Mathlib
import ManaCost.Proofs.Amount.Below
import ManaCost.Proofs.Bill.Reading
import ManaCost.Proofs.Symbol.Grammar

namespace ManaCost

/-!
# Texts with numbers below zero

A number below zero is refused for its sign by itself, as a symbol, as an option of a hybrid symbol
and inside a cost, unless something before it is at fault.  The half behind a number is added before
the sign is looked at, and a minus does not reach it.  The main statement is
`isRefusedForSign_iff`: it tells which numbers behind a minus are refused.
-/

/-- A token is refused for its sign, by itself and in every text with no fault before it. -/
structure IsRefusedForSign
    (part : List Char)
    (below : Amount) :
    Prop where
  positive : below ≠ .zero
  alone : Amount.ofToken part = .error (.negative (.of true below))
  /-- The token stands alone or among the options of a hybrid, with or without braces. -/
  inSymbol : ∀ {text token before after},
    Wraps text.toList token → partsOf token = before ++ part :: after →
      (∀ earlier ∈ before, ∃ symbol, Names earlier symbol) →
        Symbol.ofText text = .error (.negativeGeneric (.of true below))
  /-- What stands behind the symbol does not matter. -/
  inBill : ∀ {earlier symbols token before after rest},
    Spells earlier symbols → IsUnbraced token → partsOf token = before ++ part :: after →
      (∀ earlier ∈ before, ∃ symbol, Names earlier symbol) →
        Bill.ofText (String.ofList (earlier ++ braced token ++ rest)) =
          .error (.negativeGeneric (.of true below))

/-- A cost is refused with the fault of its first group that writes no symbol. -/
theorem Bill.ofText_refused
    {earlier token rest : List Char}
    {symbols : List Symbol}
    {fault : Fault}
    (spells : Spells earlier symbols)
    (unbraced : IsUnbraced token)
    (refused : Symbol.read (braced token) = .error fault) :
    ofText (String.ofList (earlier ++ braced token ++ rest)) = .error fault := by
  obtain ⟨tokens, tokensUnbraced, rfl, writes⟩ := spells
  have allUnbraced : ∀ other ∈ tokens ++ [token], IsUnbraced other :=
    List.forall_mem_append.2 ⟨tokensUnbraced, List.forall_mem_singleton.2 unbraced⟩
  have shape : grouped tokens ++ braced token ++ rest = grouped (tokens ++ [token]) ++ rest := by
    rw [grouped_append, grouped_cons]
    simp [grouped]
  rw [ofText_eq, String.toList_ofList, shape, readGroups_refused allUnbraced writes refused]

/-- A token that is refused for its sign by itself is refused for it in longer texts. -/
theorem isRefusedForSign_of_ofToken
    {part : List Char}
    {below : Amount}
    (refused : Amount.ofToken part = .error (.negative (.of true below))) :
    IsRefusedForSign part below := by
  obtain ⟨amount, same, notZero, isTotal⟩ := Amount.ofToken_eq_negative_iff.1 refused
  obtain ⟨-, rfl⟩ := Signed.of.inj same
  have inText {text token : List Char} {before after : List (List Char)}
      (wraps : Wraps text token) (shape : partsOf token = before ++ part :: after)
      (accepted : ∀ earlier ∈ before, ∃ symbol, Names earlier symbol) :
      Symbol.read text = .error (.negativeGeneric (.of true below)) :=
    Symbol.read_eq_negative_iff.2
      ⟨below, rfl, token, before, part, after, wraps, shape, accepted, notZero, isTotal⟩
  exact {
    positive := notZero
    alone := refused
    inSymbol := inText
    inBill := fun spells unbraced shape accepted =>
      Bill.ofText_refused spells unbraced (inText (.braced _) shape accepted) }

/--
A minus before a magnitude is refused for its sign exactly when the magnitude lies above its
tolerance: above what rounds to zero or, with the sign of one half behind it, above what rounds to
one half.  Any other is read as what it leaves of zero or of one half.
-/
theorem isRefusedForSign_iff
    {part : List Char}
    {value : ℚ}
    {withHalf : Bool}
    (isMinus : IsMinus part value withHalf) :
    ∃ amount : Amount,
      amount.IsNearest (value * Amount.stepsPerMana) ∧
        ((∃ below, IsRefusedForSign part below) ↔ IsMinus.tolerance withHalf < value) ∧
        (IsMinus.tolerance withHalf < value →
          IsRefusedForSign part (amount.difference (IsMinus.minuend withHalf))) ∧
        (value ≤ IsMinus.tolerance withHalf →
          Amount.ofToken part = .ok ((IsMinus.minuend withHalf).difference amount)) := by
  obtain ⟨amount, nearest⟩ := isMinus.exists_nearest
  have outcome := isMinus.ofToken_eq nearest
  have isRefused (above : IsMinus.tolerance withHalf < value) :
      IsRefusedForSign part (amount.difference (IsMinus.minuend withHalf)) := by
    rw [if_pos above] at outcome
    exact isRefusedForSign_of_ofToken outcome
  refine ⟨amount, nearest, ⟨?_, fun above => ⟨_, isRefused above⟩⟩, isRefused, fun within => ?_⟩
  · rintro ⟨below, refused⟩
    by_contra notAbove
    rw [if_neg notAbove, refused.alone] at outcome
    exact absurd outcome (by simp)
  · rwa [if_neg within.not_gt] at outcome

/-- What stands before a number below zero is read first, and what stands behind it is not read. -/
theorem isRefusedForSign_sixTenths_half :
    IsMinus "-.6½".toList (3 / 5) true ∧ IsMinus.tolerance true < 3 / 5 ∧
      ∃ below, IsRefusedForSign "-.6½".toList below ∧
        Symbol.ofText "HW/-.6½/?" = .error (.negativeGeneric (.of true below)) ∧
        Bill.ofText "{W}{½}{-.6½/?}{?}" = .error (.negativeGeneric (.of true below)) := by
  have isMinus : IsMinus "-.6½".toList (3 / 5) true := by
    have isMagnitude : IsMagnitude ".6".toList (Decimal.value ⟨6, -1⟩) :=
      .of_readMagnitude? (by decide +kernel)
    have value : (3 / 5 : ℚ) = Decimal.value ⟨6, -1⟩ := by
      norm_num [Decimal.value]
    rw [value]
    exact .numberAndHalf isMagnitude
  have above : IsMinus.tolerance true < 3 / 5 := by
    norm_num [IsMinus.tolerance]
  obtain ⟨amount, nearest, -, isRefused, -⟩ := isRefusedForSign_iff isMinus
  have refused := isRefused above
  have shape : partsOf "HW/-.6½/?".toList = ["HW".toList] ++ "-.6½".toList :: ["?".toList] := by
    decide +kernel
  have accepted : ∀ earlier ∈ ["HW".toList], ∃ symbol, Names earlier symbol :=
    List.forall_mem_singleton.2 ⟨.half .white, .half .white⟩
  have spells : Spells "{W}{½}".toList [.pip .white, .generic .half] :=
    (readGroups_eq_ok_iff []).1 (by decide +kernel)
  have text : "{W}{½}{-.6½/?}{?}" =
      String.ofList ("{W}{½}".toList ++ braced "-.6½/?".toList ++ "{?}".toList) := by
    decide +kernel
  have unbraced : IsUnbraced "-.6½/?".toList := by
    simp [IsUnbraced]
  have leading : partsOf "-.6½/?".toList = [] ++ "-.6½".toList :: ["?".toList] := by
    decide +kernel
  refine ⟨isMinus, above, _, refused, ?_, ?_⟩
  · exact refused.inSymbol (.bare (by decide +kernel)) shape accepted
  · rw [text]
    exact refused.inBill spells unbraced leading (List.forall_mem_nil _)

/-- The half behind a number is larger than the number, whose minus does not reach it. -/
theorem not_isRefusedForSign_threeTenths_half :
    Symbol.ofText "-0.3½" = .ok (.generic (.ofDecimal 2 (-1))) ∧
      ¬∀ part value withHalf, IsMinus part value withHalf → value ≠ 0 →
        ∃ below, IsRefusedForSign part below := by
  refine ⟨by decide +kernel, fun always => ?_⟩
  have isMagnitude : IsMagnitude "0.3".toList (Decimal.value ⟨3, -1⟩) :=
    .of_readMagnitude? (by decide +kernel)
  have notZero : Decimal.value ⟨3, -1⟩ ≠ 0 := by
    norm_num [Decimal.value]
  obtain ⟨below, refused⟩ := always _ _ _ (.numberAndHalf isMagnitude) notZero
  have isRead : Amount.ofToken ('-' :: "0.3".toList ++ [Amount.halfGlyph]) =
      .ok (.ofDecimal 2 (-1)) := by
    decide +kernel
  exact absurd (isRead.symm.trans refused.alone) (by simp)

end ManaCost
