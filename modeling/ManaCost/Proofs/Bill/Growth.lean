import Mathlib
import ManaCost.Proofs.Bill.Covering
import ManaCost.Proofs.Cost.Charge
import ManaCost.Proofs.Cost.Sum

namespace ManaCost

/-!
# Adding to a payer

What is added to a payer adds to every count but one: two half pips of a color become a pip, and a
payment that asks for the half pip does not find it any more.  Such a half pip is stranded.  The
main statement is `canPay_add`: a covered payment stays covered exactly when generic mana, or pips
that were missing before, make up for the stranded half pips.
-/

namespace Cost

variable {payer more payment : Cost}

/-- The colors whose half pip is in a payer, in what is added to it and in a payment. -/
def strandedHalves
    (payer more payment : Cost) :
    Finset Color :=
  Color.all.toFinset.filter fun color =>
    payer.count (.half color) = 1 ∧ more.count (.half color) = 1 ∧
      payment.count (.half color) = 1

/-- The value in steps of all copies that a payer has of a payment only with more added to it. -/
def regained
    (payer more payment : Cost) :
    ℕ∞ :=
  ∑ symbol ∈ payment.nonGenericSymbols,
    symbol.manaValue.steps *
      (payment.count symbol - payer.count symbol -
        (payment.count symbol - (payer.add more).count symbol) : Nat)

theorem mem_strandedHalves
    {color : Color} :
    color ∈ payer.strandedHalves more payment ↔
      payer.count (.half color) = 1 ∧ more.count (.half color) = 1 ∧
        payment.count (.half color) = 1 := by
  simp [strandedHalves, Color.mem_all]

/-- What is missing of a symbol with more mana, and what is regained of it, are what was missing
before, and a copy more of a stranded half pip. -/
theorem missing_add
    (payer more payment : Cost)
    {symbol : Symbol}
    (notGeneric : symbol.isGeneric = false) :
    payment.count symbol - (payer.add more).count symbol +
        (payment.count symbol - payer.count symbol -
          (payment.count symbol - (payer.add more).count symbol)) =
      payment.count symbol - payer.count symbol +
        if symbol ∈ (payer.strandedHalves more payment).image Symbol.half then 1 else 0 := by
  by_cases isHalf : ∃ color, Symbol.half color = symbol
  · obtain ⟨color, rfl⟩ := isHalf
    have payerFew := payer.count_half_le_one color
    have moreFew := more.count_half_le_one color
    have paymentFew := payment.count_half_le_one color
    have stranded : Symbol.half color ∈ (payer.strandedHalves more payment).image Symbol.half ↔
        payer.count (.half color) = 1 ∧ more.count (.half color) = 1 ∧
          payment.count (.half color) = 1 := by
      simp [mem_strandedHalves]
    simp only [count_half_add, stranded]
    split <;> omega
  · rw [not_exists] at isHalf
    have notStranded : symbol ∉ (payer.strandedHalves more payment).image Symbol.half := by
      simp [isHalf]
    have grown := count_le_count_add payer more notGeneric isHalf
    rw [if_neg notStranded]
    omega

/-- Half a mana is lacking for each stranded half pip, apart from what is regained. -/
theorem shortfall_add_regained
    (payer more payment : Cost) :
    (payer.add more).shortfall payment + payer.regained more payment =
      payer.shortfall payment +
        Amount.half.steps * ((payer.strandedHalves more payment).card : Nat) := by
  let halves := (payer.strandedHalves more payment).image Symbol.half
  have held : halves ⊆ payment.nonGenericSymbols := by
    intro symbol member
    obtain ⟨color, stranded, rfl⟩ := Finset.mem_image.1 member
    have asked := (mem_strandedHalves.1 stranded).2.2
    exact mem_nonGenericSymbols.2 ⟨rfl, asked ▸ Nat.one_pos⟩
  have stranded : ∑ symbol ∈ payment.nonGenericSymbols, symbol.manaValue.steps *
        ((if symbol ∈ halves then 1 else 0 : Nat) : ℕ∞) =
      Amount.half.steps * ((payer.strandedHalves more payment).card : Nat) := by
    calc
      ∑ symbol ∈ payment.nonGenericSymbols, symbol.manaValue.steps *
            ((if symbol ∈ halves then 1 else 0 : Nat) : ℕ∞) =
          ∑ symbol ∈ halves, symbol.manaValue.steps := by
        simp [Finset.sum_ite_mem, Finset.inter_eq_right.2 held]
      _ = ∑ color ∈ payer.strandedHalves more payment, Amount.half.steps :=
        Finset.sum_image (by simp)
      _ = Amount.half.steps * ((payer.strandedHalves more payment).card : Nat) := by
        rw [Finset.sum_const, nsmul_eq_mul, mul_comm]
  rw [← stranded]
  exact (sum_steps_add fun symbol member =>
    missing_add payer more payment (mem_nonGenericSymbols.1 member).1).trans
      (sum_steps_add fun _ _ => rfl).symm

theorem regained_ne_top
    (more : Cost)
    (finite : payer.shortfall payment ≠ ⊤) :
    payer.regained more payment ≠ ⊤ := by
  have stranded :
      Amount.half.steps * ((payer.strandedHalves more payment).card : Nat) ≠ ⊤ := by
    rw [Amount.steps_half, ← Nat.cast_mul]
    exact ENat.natCast_ne_top _
  intro unbounded
  have sum := shortfall_add_regained payer more payment
  rw [unbounded, add_top, eq_comm, ENat.add_eq_top] at sum
  exact sum.elim finite stranded

/-- A covered payment stays covered when what it leaves, what is added and what is regained make up
for the stranded half pips, and in no other case. -/
theorem canPay_add_iff
    {left : Cost}
    (pure : payment.isPure = true)
    (payerExact : payer.generic.IsExact)
    (moreExact : more.generic.IsExact)
    (totalExact : Amount.IsExactTotal (payer.generic.steps + more.generic.steps))
    (exact : payment.generic.IsExact)
    (paid : payer.remainder? payment .covering = some left) :
    (payer.add more).canPay payment = true ↔
      Amount.half.steps * ((payer.strandedHalves more payment).card : Nat) ≤
        left.generic.steps + more.generic.steps + payer.regained more payment := by
  have covered := charge_le_of_covering pure payerExact exact paid
  have isLeft := isLeft_of_covering pure payerExact exact paid
  rw [canPay_iff pure (isExact_generic_add payerExact moreExact totalExact) exact,
    steps_generic_add payerExact moreExact totalExact]
  by_cases infinite : payer.generic = .infinite
  · simp [infinite, isLeft.infinite_iff.2 infinite]
  · have payerFinite := mt Amount.steps_eq_top_iff.1 infinite
    have kept : payment.generic.steps + payer.shortfall payment + left.generic.steps =
        payer.generic.steps := by
      rw [isLeft.generic_eq, if_neg infinite]
      exact add_tsub_cancel_of_le covered
    have finite := ne_top_of_le_ne_top payerFinite covered
    have lackFinite : payer.shortfall payment ≠ ⊤ := ne_top_of_le_ne_top finite le_add_self
    have regainedFinite := regained_ne_top more lackFinite
    calc
      payment.generic.steps + (payer.add more).shortfall payment ≤
            payer.generic.steps + more.generic.steps ↔
          payment.generic.steps + (payer.add more).shortfall payment ≤
            payment.generic.steps +
              (payer.shortfall payment + left.generic.steps + more.generic.steps) := by
        rw [← kept]
        ac_nf
      _ ↔ (payer.add more).shortfall payment + payer.regained more payment ≤
            payer.shortfall payment + left.generic.steps + more.generic.steps +
              payer.regained more payment := by
        rw [ENat.add_le_add_iff_left (ne_top_of_le_ne_top finite le_self_add),
          ENat.add_le_add_iff_right regainedFinite]
      _ ↔ payer.shortfall payment +
            Amount.half.steps * ((payer.strandedHalves more payment).card : Nat) ≤
            payer.shortfall payment +
              (left.generic.steps + more.generic.steps + payer.regained more payment) := by
        rw [shortfall_add_regained, add_assoc, add_assoc, add_assoc]
      _ ↔ Amount.half.steps * ((payer.strandedHalves more payment).card : Nat) ≤
            left.generic.steps + more.generic.steps + payer.regained more payment :=
        ENat.add_le_add_iff_left lackFinite

end Cost

namespace Bill

/--
A payer that covers a payment covers it with more added exactly when half a mana can be found for
each stranded half pip: in the generic mana that the payment leaves, in the generic mana that is
added, and in the pips that are regained.
-/
theorem canPay_add
    (payer more : PureCost)
    (payment remainder : Bill)
    (pure : payment.cost.isPure = true)
    (payerExact : payer.cost.generic.IsExact)
    (moreExact : more.cost.generic.IsExact)
    (totalExact :
      Amount.IsExactTotal (payer.cost.generic.steps + more.cost.generic.steps))
    (paymentExact : payment.cost.generic.IsExact)
    (paid : (Bill.payable payer).reduce payment .covering = .ok (.ok remainder)) :
    ∃ covers,
      ((Bill.payable payer).add (.payable more)).canPay payment = .ok covers ∧
        (covers = true ↔
          Amount.half.steps *
              ((payer.cost.strandedHalves more.cost payment.cost).card : Nat) ≤
            remainder.cost.generic.steps + more.cost.generic.steps +
              payer.cost.regained more.cost payment.cost) := by
  rw [reduce_payable payer payment .covering pure] at paid
  obtain ⟨left, leftPaid, rfl⟩ := exists_of_map_eq_ok (Except.ok.inj paid)
  rw [add_payable, cost_classify]
  exact ⟨_, canPay_payable _ payment pure,
    Cost.canPay_add_iff pure payerExact moreExact totalExact paymentExact
      (Cost.remainder?_eq_some_iff.2 leftPaid)⟩

/-- A generic mana, half a white pip and a red one. -/
def oneHalfWhiteRed : PureCost where
  cost := .ofSymbols [.generic .one, .half .white, .pip .red]
  isPure := by decide +kernel

/-- Half a white pip and a blue one. -/
def halfWhiteBlue : PureCost where
  cost := .ofSymbols [.half .white, .pip .blue]
  isPure := by decide +kernel

/-- Half a generic mana, half a white pip and a red one. -/
def halfHalfWhiteRed : Bill :=
  .plain (.ofSymbols [.generic .half, .half .white, .pip .red])

/-- Half a generic mana is left, and is just enough for the half pip that is stranded. -/
theorem canPay_add_half_white :
    halfHalfWhiteRed.cost.isPure = true ∧
      (Bill.payable oneHalfWhiteRed).reduce halfHalfWhiteRed .covering =
        .ok (.ok (classify (.ofSymbols [.generic .half]))) ∧
        oneHalfWhiteRed.cost.strandedHalves halfWhiteBlue.cost halfHalfWhiteRed.cost =
          {.white} ∧
          ((Bill.payable oneHalfWhiteRed).add (.payable halfWhiteBlue)).canPay halfHalfWhiteRed =
            .ok true := by
  have pure : halfHalfWhiteRed.cost.isPure = true := by decide +kernel
  have paid : (Bill.payable oneHalfWhiteRed).reduce halfHalfWhiteRed .covering =
      .ok (.ok (classify (.ofSymbols [.generic .half]))) := by
    decide +kernel
  have stranded : oneHalfWhiteRed.cost.strandedHalves halfWhiteBlue.cost halfHalfWhiteRed.cost =
      {.white} := by
    decide +kernel
  have spare : Amount.half.steps * ((oneHalfWhiteRed.cost.strandedHalves halfWhiteBlue.cost
        halfHalfWhiteRed.cost).card : Nat) ≤
      (classify (.ofSymbols [.generic .half])).cost.generic.steps +
        halfWhiteBlue.cost.generic.steps +
          oneHalfWhiteRed.cost.regained halfWhiteBlue.cost halfHalfWhiteRed.cost := by
    decide +kernel
  have totalExact : Amount.IsExactTotal
      (oneHalfWhiteRed.cost.generic.steps + halfWhiteBlue.cost.generic.steps) := by
    unfold Amount.IsExactTotal
    decide +kernel
  obtain ⟨covers, sum, enough⟩ := canPay_add oneHalfWhiteRed halfWhiteBlue halfHalfWhiteRed _ pure
    (by decide +kernel) (by decide +kernel) totalExact (by decide +kernel) paid
  exact ⟨pure, paid, stranded, sum.trans (congrArg Except.ok (enough.2 spare))⟩

/-- Half a white pip. -/
def halfWhite : PureCost where
  cost := .ofSymbols [.half .white]
  isPure := by decide +kernel

/-- Half a white pip covers half a white pip, but two half white pips, which are a whole one, do
not. -/
theorem not_canPay_two_half_white :
    halfWhite.cost.generic.IsExact ∧
      ((Bill.payable halfWhite).add (.payable halfWhite)).cost.generic.IsExact ∧
        (Bill.payable halfWhite).canPay (.payable halfWhite) = .ok true ∧
          ((Bill.payable halfWhite).add (.payable halfWhite)).canPay (.payable halfWhite) =
            .ok false := by
  decide +kernel

end Bill

end ManaCost
