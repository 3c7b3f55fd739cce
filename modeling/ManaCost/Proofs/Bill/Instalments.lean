import Mathlib
import ManaCost.Proofs.Bill.Payment
import ManaCost.Proofs.Cost.Instalments

namespace ManaCost.Bill

/-!
# Bills paid in instalments

Several bills may be paid out of one, each out of what the bills before it have left.  The main
statements are `Bill.instalments_add`, by which two instalments come to what their sum comes to, and
`Bill.instalments_comm`, by which the order of two instalments does not show.
-/

/-- What is left of a bill when others are paid out of it one after another, or nothing when one of
them cannot be paid. -/
def instalments
    (payer : Bill)
    (policy : Policy) :
    List Bill → Except Fault (Option Bill)
  | [] => .ok (some payer)
  | payment :: rest =>
      match payer.reduce payment policy with
      | .error fault => .error fault
      | .ok (.error _) => .ok none
      | .ok (.ok left) => left.instalments policy rest

/-- Paying pure bills out of a payable one comes to paying their costs. -/
theorem instalments_payable
    (payer : PureCost)
    (policy : Policy)
    {payments : List Bill}
    (pure : ∀ payment ∈ payments, payment.cost.isPure = true) :
    (Bill.payable payer).instalments policy payments =
      .ok ((payer.cost.instalments policy (payments.map cost)).map classify) := by
  induction payments generalizing payer with
  | nil =>
      simp [instalments, Cost.instalments, classify_of_isPure payer.isPure]
  | cons payment rest inductionHypothesis =>
      rw [List.forall_mem_cons] at pure
      rw [List.map_cons, instalments, reduce_payable payer payment policy pure.1, Cost.instalments,
        Cost.remainder?]
      cases paid : payer.cost.reduce payment.cost policy with
      | error shortage => rfl
      | ok left =>
          have leftPure : left.isPure = true :=
            Cost.isPure_of_remainder? payer.isPure (Cost.remainder?_eq_some_iff.2 paid)
          have rest := inductionHypothesis ⟨left, leftPure⟩ pure.2
          rw [← classify_of_isPure leftPure] at rest
          exact rest

/-- Bills of exact amounts may be paid in any order. -/
theorem instalments_eq_of_perm
    (payer : PureCost)
    (policy : Policy)
    {payments others : List Bill}
    (same : payments.Perm others)
    (payerExact : payer.cost.generic.IsExact)
    (pure : ∀ payment ∈ payments, payment.cost.isPure = true)
    (exact : ∀ payment ∈ payments, payment.cost.generic.IsExact) :
    (Bill.payable payer).instalments policy payments =
      (Bill.payable payer).instalments policy others := by
  have otherPure : ∀ payment ∈ others, payment.cost.isPure = true :=
    fun payment member => pure payment (same.mem_iff.2 member)
  have costs : payer.cost.instalments policy (payments.map cost) =
      payer.cost.instalments policy (others.map cost) :=
    Cost.instalments_eq_of_perm (same.map cost) payerExact (List.forall_mem_map.2 pure)
      (List.forall_mem_map.2 exact)
  rw [instalments_payable payer policy pure, instalments_payable payer policy otherPure, costs]

/--
Paying a sum comes to paying its parts one after another, whatever the policy: it fails where one of
the instalments fails, and otherwise leaves what the instalments leave.  The parts may not both hold
half a pip of one color, since the sum would hold a whole pip instead.
-/
theorem instalments_add
    (payer : PureCost)
    (first second : Bill)
    (policy : Policy)
    (firstPure : first.cost.isPure = true)
    (secondPure : second.cost.isPure = true)
    (apart : ∀ color,
      first.cost.count (.half color) = 0 ∨ second.cost.count (.half color) = 0)
    (payerExact : payer.cost.generic.IsExact)
    (firstExact : first.cost.generic.IsExact)
    (secondExact : second.cost.generic.IsExact) :
    ∃ outcome : Option Bill,
      (Bill.payable payer).instalments policy [first.add second] = .ok outcome ∧
        (Bill.payable payer).instalments policy [first, second] = .ok outcome := by
  have sumCost : (first.add second).cost = first.cost.add second.cost := cost_add _ _
  have sumPure : (first.add second).cost.isPure = true := by
    rw [sumCost]
    exact Cost.isPure_add firstPure secondPure
  have costs : payer.cost.instalments policy [first.cost, second.cost] =
      payer.cost.instalments policy [(first.add second).cost] := by
    simp [Cost.instalments, sumCost,
      Cost.remainder?_add payerExact firstPure firstExact secondPure secondExact apart]
  refine ⟨_, instalments_payable payer policy (by simp [sumPure]), ?_⟩
  rw [instalments_payable payer policy (by simp [firstPure, secondPure])]
  simp [costs]

/-- Three generic mana in two symbols, a white pip and half a red one. -/
def threeWhiteHalfRed : PureCost where
  cost := .ofSymbols [.generic .one, .generic .two, .pip .white, .half .red]
  isPure := by decide +kernel

/-- A generic mana, a white pip and half a red one. -/
def oneWhiteHalfRed : Bill :=
  .plain (.ofSymbols [.generic .one, .pip .white, .half .red])

/-- A white pip and half a blue one. -/
def whiteHalfBlue : Bill :=
  .plain (.ofSymbols [.pip .white, .half .blue])

/-- The second white pip and half the blue one are paid with generic mana, at once as in
instalments. -/
theorem instalments_add_white_white :
    oneWhiteHalfRed.cost.isPure = true ∧ whiteHalfBlue.cost.isPure = true ∧
      (∀ color, oneWhiteHalfRed.cost.count (.half color) = 0 ∨
        whiteHalfBlue.cost.count (.half color) = 0) ∧
        (Bill.payable threeWhiteHalfRed).instalments .covering [oneWhiteHalfRed, whiteHalfBlue] =
          .ok (some (classify (.ofSymbols [.generic .half]))) := by
  have firstPure : oneWhiteHalfRed.cost.isPure = true := by decide +kernel
  have secondPure : whiteHalfBlue.cost.isPure = true := by decide +kernel
  have apart : ∀ color, oneWhiteHalfRed.cost.count (.half color) = 0 ∨
      whiteHalfBlue.cost.count (.half color) = 0 := by
    intro color
    cases color <;> decide +kernel
  have atOnce : (Bill.payable threeWhiteHalfRed).instalments .covering
      [oneWhiteHalfRed.add whiteHalfBlue] =
        .ok (some (classify (.ofSymbols [.generic .half]))) := by
    decide +kernel
  obtain ⟨outcome, sum, parts⟩ := instalments_add threeWhiteHalfRed oneWhiteHalfRed whiteHalfBlue
    .covering firstPure secondPure apart (by decide +kernel) (by decide +kernel) (by decide +kernel)
  exact ⟨firstPure, secondPure, apart, parts.trans (sum.symm.trans atOnce)⟩

/--
The order of two payments does not show, whatever the policy: either both orders fail at one of the
payments, or both leave the same bill.
-/
theorem instalments_comm
    (payer : PureCost)
    (first second : Bill)
    (policy : Policy)
    (firstPure : first.cost.isPure = true)
    (secondPure : second.cost.isPure = true)
    (payerExact : payer.cost.generic.IsExact)
    (firstExact : first.cost.generic.IsExact)
    (secondExact : second.cost.generic.IsExact) :
    ∃ outcome : Option Bill,
      (Bill.payable payer).instalments policy [first, second] = .ok outcome ∧
        (Bill.payable payer).instalments policy [second, first] = .ok outcome := by
  have pure : ∀ payment ∈ [first, second], payment.cost.isPure = true := by
    simp [firstPure, secondPure]
  have exact : ∀ payment ∈ [first, second], payment.cost.generic.IsExact := by
    simp [firstExact, secondExact]
  have swapped := instalments_eq_of_perm payer policy (.swap second first []) payerExact pure exact
  exact ⟨_, instalments_payable payer policy pure,
    swapped.symm.trans (instalments_payable payer policy pure)⟩

/-- Half a red pip. -/
def halfRed : Bill :=
  .plain (.ofSymbols [.half .red])

/-- Of two payments with the same half pip the second needs generic mana, whichever it is. -/
theorem instalments_comm_half_red :
    oneWhiteHalfRed.cost.isPure = true ∧ halfRed.cost.isPure = true ∧
      threeWhiteHalfRed.cost.generic.IsExact ∧ oneWhiteHalfRed.cost.generic.IsExact ∧
        halfRed.cost.generic.IsExact ∧
          (Bill.payable threeWhiteHalfRed).instalments .covering [halfRed, oneWhiteHalfRed] =
            .ok (some (classify (.ofSymbols [.generic .one, .generic .half]))) := by
  have firstPure : oneWhiteHalfRed.cost.isPure = true := by decide +kernel
  have secondPure : halfRed.cost.isPure = true := by decide +kernel
  have payerExact : threeWhiteHalfRed.cost.generic.IsExact := by decide +kernel
  have firstExact : oneWhiteHalfRed.cost.generic.IsExact := by decide +kernel
  have secondExact : halfRed.cost.generic.IsExact := by decide +kernel
  have inOrder : (Bill.payable threeWhiteHalfRed).instalments .covering
      [oneWhiteHalfRed, halfRed] =
        .ok (some (classify (.ofSymbols [.generic .one, .generic .half]))) := by
    decide +kernel
  obtain ⟨outcome, paid, swapped⟩ := instalments_comm threeWhiteHalfRed oneWhiteHalfRed halfRed
    .covering firstPure secondPure payerExact firstExact secondExact
  exact ⟨firstPure, secondPure, payerExact, firstExact, secondExact,
    swapped.trans (paid.symm.trans inOrder)⟩

end ManaCost.Bill
