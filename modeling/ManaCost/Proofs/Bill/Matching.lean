import Mathlib
import ManaCost.Proofs.Bill.Covering
import ManaCost.Proofs.Cost.Worth

namespace ManaCost

/-!
# Paying as matching

A payer pays each symbol with its own copies wherever it can.  No other way to match symbols could
cover more, and no mana is lost on the way.  The main statement is `covers_iff_exists_matched`.
-/

namespace Cost

variable {payer payment left : Cost}

/-- A payment is covered when the symbols of some matching leave no more to be paid than the payer
has generic mana. -/
theorem canPay_of_matched
    {matched : Multiset Symbol}
    (payerPure : payer.isPure = true)
    (payerExact : payer.generic.IsExact)
    (pure : payment.isPure = true)
    (exact : payment.IsExact)
    (notGeneric : ∀ symbol ∈ matched, symbol.isGeneric = false)
    (ofPayer : matched ≤ payer.symbols)
    (ofPayment : matched ≤ payment.symbols)
    (enough : payment.manaValue.steps - matchedWorth matched ≤ payer.generic.steps) :
    payer.canPay payment = true := by
  have matchedPure : ∀ symbol ∈ matched, symbol.isPure = true := by
    intro symbol member
    have held := mem_nonGenericSymbols_of_mem ofPayer notGeneric member
    have counted := (mem_nonGenericSymbols.1 held).2
    by_contra notPure
    exact counted.ne' (isPure_iff.1 payerPure symbol (Bool.eq_false_of_not_eq_true notPure))
  rw [canPay_iff pure payerExact exact.generic]
  rw [exact.steps_manaValue pure, worth_eq, tsub_le_iff_right] at enough
  rw [← ENat.add_le_add_iff_right (matchedWorth_ne_top matchedPure notGeneric)]
  calc
    payment.generic.steps + payer.shortfall payment + matchedWorth matched =
        payment.generic.steps + (payer.shortfall payment + matchedWorth matched) :=
      add_assoc _ _ _
    _ ≤ payment.generic.steps + payment.pipWorth :=
      add_le_add_right (shortfall_add_matchedWorth_le ofPayer ofPayment notGeneric) _
    _ ≤ payer.generic.steps + matchedWorth matched := enough

/-- Where a payment is covered, matching all that both costs have in common does it. -/
theorem manaValue_sub_matchedWorth_common_le
    (payerExact : payer.generic.IsExact)
    (pure : payment.isPure = true)
    (exact : payment.IsExact)
    (covered : payer.canPay payment = true) :
    payment.manaValue.steps - matchedWorth (payer.common payment) ≤ payer.generic.steps := by
  rw [canPay_iff pure payerExact exact.generic] at covered
  rw [exact.steps_manaValue pure, worth_eq, tsub_le_iff_right,
    ← shortfall_add_matchedWorth_common payer payment, ← add_assoc]
  exact add_le_add_left covered _

/-- What a covered payment leaves and the payment itself have the value of the payer. -/
theorem steps_manaValue_add
    (payerPure : payer.isPure = true)
    (payerExact : payer.IsExact)
    (finite : payer.generic ≠ .infinite)
    (pure : payment.isPure = true)
    (exact : payment.IsExact)
    (paid : payer.remainder? payment .covering = some left) :
    left.manaValue.steps + payment.manaValue.steps = payer.manaValue.steps := by
  have isLeft := isLeft_of_covering pure payerExact.generic exact.generic paid
  have covered := charge_le_of_covering pure payerExact.generic exact.generic paid
  have conserved := worth_add_worth isLeft finite covered
  have follows := follows_manaValue (isPure_of_remainder? payerPure paid)
    (isExact_of_remainder? pure payerExact.generic exact.generic paid)
  have below : left.worth < Amount.exactLimit := by
    calc
      left.worth ≤ payer.worth := le_self_add.trans conserved.le
      _ = payer.manaValue.steps := (payerExact.steps_manaValue payerPure).symm
      _ < Amount.exactLimit := payerExact.manaValue.lt_exactLimit (payerExact.finite finite)
  rw [follows.steps_eq below, exact.steps_manaValue pure, payerExact.steps_manaValue payerPure,
    conserved]

end Cost

namespace PureCost

/--
A payer covers a payment exactly when some symbols that both hold, none of them generic, leave no
more of the payment's value than the payer has generic mana.  What a covered payment leaves of a
payer with finite generic mana is worth the difference: together with the payment it has the value
of the payer.
-/
theorem covers_iff_exists_matched
    (payer payment : PureCost)
    (payerExact : payer.cost.generic.IsExact)
    (paymentExact : payment.cost.IsExact) :
    (payer.Covers payment ↔
      ∃ matched : Multiset Symbol,
        (∀ symbol ∈ matched, symbol.isGeneric = false) ∧
          matched ≤ (payer.cost.symbols : Multiset Symbol) ∧
            matched ≤ (payment.cost.symbols : Multiset Symbol) ∧
              payment.cost.manaValue.steps - Cost.matchedWorth matched ≤
                payer.cost.generic.steps) ∧
      (payer.cost.IsExact → payer.cost.generic ≠ .infinite →
        ∀ remainder : Bill,
          (Bill.payable payer).reduce (.payable payment) .covering = .ok (.ok remainder) →
            remainder.cost.manaValue.steps + payment.cost.manaValue.steps =
              payer.cost.manaValue.steps) := by
  refine ⟨covers_iff_canPay.trans ⟨?_, ?_⟩, ?_⟩
  · intro covered
    have notGeneric : ∀ symbol ∈ payer.cost.common payment.cost, symbol.isGeneric = false :=
      fun symbol member => (Multiset.mem_filter.1 member).2
    have within := Multiset.filter_le (fun symbol : Symbol => symbol.isGeneric = false)
      ((payer.cost.symbols : Multiset Symbol) ∩ payment.cost.symbols)
    exact ⟨payer.cost.common payment.cost, notGeneric, within.trans Multiset.inter_le_left,
      within.trans Multiset.inter_le_right,
      Cost.manaValue_sub_matchedWorth_common_le payerExact payment.isPure paymentExact covered⟩
  · rintro ⟨matched, notGeneric, ofPayer, ofPayment, enough⟩
    exact Cost.canPay_of_matched payer.isPure payerExact payment.isPure paymentExact notGeneric
      ofPayer ofPayment enough
  · intro exact finite remainder paid
    rw [Bill.reduce_payable payer (.payable payment) .covering payment.isPure] at paid
    obtain ⟨left, leftPaid, rfl⟩ := Bill.exists_of_map_eq_ok (Except.ok.inj paid)
    rw [Bill.cost_classify]
    exact Cost.steps_manaValue_add payer.isPure exact finite payment.isPure paymentExact
      (Cost.remainder?_eq_some_iff.2 leftPaid)

/-- Two generic mana, a white pip and half a red one. -/
def twoWhiteHalfRed : PureCost where
  cost := .ofSymbols [.generic .two, .pip .white, .half .red]
  isPure := by decide +kernel

/-- Half a generic mana, two white pips, half a red one and a variable. -/
def halfWhiteWhiteHalfRedX : PureCost where
  cost := .ofSymbols [.generic .half, .pip .white, .pip .white, .half .red, .var .x]
  isPure := by decide +kernel

theorem isExact_twoWhiteHalfRed :
    twoWhiteHalfRed.cost.IsExact where
  generic := by decide +kernel
  manaValue := by decide +kernel
  finite := by decide +kernel

theorem isExact_halfWhiteWhiteHalfRedX :
    halfWhiteWhiteHalfRedX.cost.IsExact where
  generic := by decide +kernel
  manaValue := by decide +kernel
  finite := by decide +kernel

/-- A white pip and half a red one are matched; half a generic mana and a white pip are left to be
paid, and half a generic mana is left in the end. -/
theorem covers_half_white_white_half_red_x :
    twoWhiteHalfRed.cost.IsExact ∧ halfWhiteWhiteHalfRedX.cost.IsExact ∧
      (∃ matched : Multiset Symbol,
        (∀ symbol ∈ matched, symbol.isGeneric = false) ∧
          matched ≤ (twoWhiteHalfRed.cost.symbols : Multiset Symbol) ∧
            matched ≤ (halfWhiteWhiteHalfRedX.cost.symbols : Multiset Symbol) ∧
              halfWhiteWhiteHalfRedX.cost.manaValue.steps - Cost.matchedWorth matched ≤
                twoWhiteHalfRed.cost.generic.steps) ∧
        ∃ remainder : Bill,
          (Bill.payable twoWhiteHalfRed).reduce (.payable halfWhiteWhiteHalfRedX) .covering =
              .ok (.ok remainder) ∧
            remainder.cost.manaValue.steps + halfWhiteWhiteHalfRedX.cost.manaValue.steps =
              twoWhiteHalfRed.cost.manaValue.steps := by
  obtain ⟨matching, conserves⟩ := covers_iff_exists_matched twoWhiteHalfRed halfWhiteWhiteHalfRedX
    isExact_twoWhiteHalfRed.generic isExact_halfWhiteWhiteHalfRedX
  have covers : twoWhiteHalfRed.Covers halfWhiteWhiteHalfRedX := by
    unfold Covers
    decide +kernel
  have paid : (Bill.payable twoWhiteHalfRed).reduce (.payable halfWhiteWhiteHalfRedX) .covering =
      .ok (.ok (Bill.classify (.ofSymbols [.generic .half]))) := by
    decide +kernel
  exact ⟨isExact_twoWhiteHalfRed, isExact_halfWhiteWhiteHalfRedX, matching.1 covers, _, paid,
    conserves isExact_twoWhiteHalfRed (by decide +kernel) _ paid⟩

end PureCost

end ManaCost
