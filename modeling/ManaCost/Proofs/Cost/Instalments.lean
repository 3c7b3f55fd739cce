import Mathlib
import ManaCost.Proofs.Cost.Charge
import ManaCost.Proofs.Cost.Sum

namespace ManaCost.Cost

/-!
# Payments one after another

The second of two payments meets a payer from which the first has been taken.  What is missing then
and what was missing before add up to what is missing of both payments together, and that does not
depend on their order.  The main statements are `remainder?_comm` and `remainder?_add`; by
`instalments_eq_of_perm` any number of payments may be put in another order.
-/

variable {payer first second left : Cost} {policy : Policy}

/-- The value in steps of all copies that two payments ask for together and their payer has not. -/
def jointShortfall
    (payer first second : Cost) :
    ℕ∞ :=
  ∑ symbol ∈ first.nonGenericSymbols ∪ second.nonGenericSymbols,
    symbol.manaValue.steps * (first.count symbol + second.count symbol - payer.count symbol : Nat)

/-- The value in steps of all copies that are missing when a first payment has been taken out. -/
def shortfallAfter
    (payer first second : Cost) :
    ℕ∞ :=
  ∑ symbol ∈ second.nonGenericSymbols,
    symbol.manaValue.steps *
      (second.count symbol - (payer.count symbol - first.count symbol) : Nat)

/-- The charge of two payments together. -/
def jointCharge
    (payer first second : Cost)
    (policy : Policy) :
    Charge where
  copies symbol := first.count symbol + second.count symbol
  generic :=
    first.generic.steps + second.generic.steps +
      if policy.colorPaysGeneric then payer.jointShortfall first second else 0

theorem jointShortfall_comm
    (payer first second : Cost) :
    payer.jointShortfall first second = payer.jointShortfall second first := by
  simp only [jointShortfall, Finset.union_comm first.nonGenericSymbols,
    Nat.add_comm (first.count _)]

theorem jointCharge_comm
    (payer first second : Cost)
    (policy : Policy) :
    payer.jointCharge first second policy = payer.jointCharge second first policy := by
  simp only [jointCharge, payer.jointShortfall_comm first, Nat.add_comm (first.count _),
    add_comm first.generic.steps]

/-- What is missing of two payments, one after another, is missing of both together. -/
theorem shortfall_add_shortfallAfter
    (payer first second : Cost) :
    payer.shortfall first + payer.shortfallAfter first second =
      payer.jointShortfall first second := by
  have notGeneric := fun symbol => @not_isGeneric_of_mem_union first second symbol
  have within : second.nonGenericSymbols ⊆ first.nonGenericSymbols ∪ second.nonGenericSymbols :=
    Finset.subset_union_right
  have after := sum_count_eq within notGeneric
    (fun symbol copies => symbol.manaValue.steps *
      (copies - (payer.count symbol - first.count symbol) : Nat)) (by simp)
  rw [payer.shortfall_eq_sum Finset.subset_union_left notGeneric, shortfallAfter, after]
  apply sum_steps_add
  intro symbol _
  omega

theorem IsLeft.shortfall_eq
    {needed : ℕ∞}
    (isLeft : payer.IsLeft ⟨first.count, needed⟩ left) :
    left.shortfall second = payer.shortfallAfter first second := by
  refine Finset.sum_congr rfl fun symbol member => ?_
  rw [isLeft.count_eq symbol (mem_nonGenericSymbols.1 member).1]

/-- Two payments one after another settle their joint charge. -/
theorem isSettled_remainder?_bind
    (payerExact : payer.generic.IsExact)
    (firstPure : first.isPure = true)
    (firstExact : first.generic.IsExact)
    (secondPure : second.isPure = true)
    (secondExact : second.generic.IsExact) :
    payer.IsSettled policy (payer.jointCharge first second policy)
      ((payer.remainder? first policy).bind fun left => left.remainder? second policy) := by
  have settled : payer.IsSettled policy _ (payer.remainder? first policy) :=
    isSettled_remainder? firstPure payerExact (Amount.follows_of_isExact firstExact)
  have nextSettled (left : Cost) (paid : payer.remainder? first policy = some left) :
      left.IsSettled policy
        ⟨second.count, second.generic.steps +
          if policy.colorPaysGeneric then payer.shortfallAfter first second else 0⟩
        (left.remainder? second policy) := by
    have leftExact := isExact_of_remainder? firstPure payerExact firstExact paid
    rw [← (settled.isLeft left paid).shortfall_eq]
    exact isSettled_remainder? secondPure leftExact (Amount.follows_of_isExact secondExact)
  refine (settled.bind nextSettled).congr (fun _ _ => rfl) ?_
  rw [Charge.generic_add, add_add_add_comm, jointCharge, ← shortfall_add_shortfallAfter,
    missingNeed]
  cases policy.colorPaysGeneric <;> simp

theorem remainder?_comm
    (payerExact : payer.generic.IsExact)
    (firstPure : first.isPure = true)
    (firstExact : first.generic.IsExact)
    (secondPure : second.isPure = true)
    (secondExact : second.generic.IsExact) :
    ((payer.remainder? first policy).bind fun left => left.remainder? second policy) =
      (payer.remainder? second policy).bind fun left => left.remainder? first policy := by
  refine (isSettled_remainder?_bind payerExact firstPure firstExact secondPure secondExact).unique
    ?_
  rw [jointCharge_comm]
  exact isSettled_remainder?_bind payerExact secondPure secondExact firstPure firstExact

/-- Of a sum without paired half pips a payer lacks what it lacks of both costs. -/
theorem shortfall_add
    (apart : ∀ color, first.count (.half color) = 0 ∨ second.count (.half color) = 0) :
    payer.shortfall (first.add second) = payer.jointShortfall first second := by
  have held : (first.add second).nonGenericSymbols ⊆
      first.nonGenericSymbols ∪ second.nonGenericSymbols := by
    intro symbol member
    obtain ⟨notGeneric, positive⟩ := mem_nonGenericSymbols.1 member
    rw [count_add_of_apart apart notGeneric] at positive
    rw [Finset.mem_union, mem_nonGenericSymbols, mem_nonGenericSymbols]
    simp only [notGeneric, true_and]
    omega
  rw [payer.shortfall_eq_sum held fun _ => not_isGeneric_of_mem_union, jointShortfall]
  refine Finset.sum_congr rfl fun symbol member => ?_
  rw [count_add_of_apart apart (not_isGeneric_of_mem_union member)]

/-- A sum without paired half pips may be paid in two instalments. -/
theorem remainder?_add
    (payerExact : payer.generic.IsExact)
    (firstPure : first.isPure = true)
    (firstExact : first.generic.IsExact)
    (secondPure : second.isPure = true)
    (secondExact : second.generic.IsExact)
    (apart : ∀ color, first.count (.half color) = 0 ∨ second.count (.half color) = 0) :
    payer.remainder? (first.add second) policy =
      (payer.remainder? first policy).bind fun left => left.remainder? second policy := by
  -- The generic mana of the sum may be rounded; what is charged is the total that it follows.
  have joint : payer.IsSettled policy (payer.jointCharge first second policy)
      (payer.remainder? (first.add second) policy) := by
    have follows := (comesTo_generic_add firstExact secondExact).follows
    refine (isSettled_remainder? (isPure_add firstPure secondPure) payerExact follows).congr
      (fun _ => count_add_of_apart apart) ?_
    rw [missingNeed, shortfall_add apart]
    rfl
  exact joint.unique
    (isSettled_remainder?_bind payerExact firstPure firstExact secondPure secondExact)

/-- What is left of a cost when payments are taken out one after another, if all go through. -/
def instalments
    (payer : Cost)
    (policy : Policy) :
    List Cost → Option Cost
  | [] => some payer
  | payment :: rest =>
      (payer.remainder? payment policy).bind fun left => left.instalments policy rest

theorem instalments_eq_of_perm
    {payments others : List Cost}
    (same : payments.Perm others)
    (payerExact : payer.generic.IsExact)
    (pure : ∀ payment ∈ payments, payment.isPure = true)
    (exact : ∀ payment ∈ payments, payment.generic.IsExact) :
    payer.instalments policy payments = payer.instalments policy others := by
  -- The invariant is that the payer is exact, and a payment leaves an exact one.
  induction same generalizing payer with
  | nil =>
      rfl
  | cons payment _ inductionHypothesis =>
      rw [List.forall_mem_cons] at pure exact
      refine Option.bind_congr fun left paid => ?_
      have leftExact := isExact_of_remainder? pure.1 payerExact exact.1 paid
      exact inductionHypothesis leftExact pure.2 exact.2
  | swap first second rest =>
      simp only [List.forall_mem_cons] at pure exact
      obtain ⟨secondPure, firstPure, -⟩ := pure
      obtain ⟨secondExact, firstExact, -⟩ := exact
      simp only [instalments, ← Option.bind_assoc,
        remainder?_comm payerExact secondPure secondExact firstPure firstExact]
  | trans firstSame _ firstHypothesis secondHypothesis =>
      exact (firstHypothesis payerExact pure exact).trans
        (secondHypothesis payerExact
          (fun payment member => pure payment (firstSame.mem_iff.2 member))
          fun payment member => exact payment (firstSame.mem_iff.2 member))

end ManaCost.Cost
