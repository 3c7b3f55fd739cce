import Mathlib
import ManaCost.Proofs.Bill.Payment

namespace ManaCost

/-!
# Costs that cover each other

A cost covers another when paying the other leaves no shortage.  For exact amounts this means that
its generic mana reaches the other's, with the value of all missing copies on top.  The main
statement is `covers_preorder`: covering is reflexive and transitive, and two costs of finite
generic mana that cover each other agree on everything that is worth mana.
-/

namespace Cost

/-- A cost covers another when its generic mana covers what the other requires. -/
theorem canPay_iff
    {payer payment : Cost}
    (pure : payment.isPure = true)
    (payerExact : payer.generic.IsExact)
    (exact : payment.generic.IsExact) :
    payer.canPay payment = true ↔
      payment.generic.steps + payer.shortfall payment ≤ payer.generic.steps := by
  have fails : (∃ shortage, payer.demand payment .covering = .error shortage) ↔
      payer.generic.steps < payment.generic.steps + payer.shortfall payment := by
    rw [demand_eq_error_iff pure payerExact exact]
    simp [Policy.covering, required]
  simp only [← reduce_eq_error_iff] at fails
  rw [← not_lt, ← fails, canPay]
  cases payer.reduce payment .covering with
  | error shortage => simp [Except.toBool]
  | ok remainder => simp [Except.toBool]

/-- Nothing is missing of a cost in itself. -/
theorem shortfall_self
    (cost : Cost) :
    cost.shortfall cost = 0 := by
  apply Finset.sum_eq_zero
  intro symbol _
  rw [Nat.sub_self, Nat.cast_zero, mul_zero]

/-- What is missing in a cost is missing in one of two steps. -/
theorem shortfall_triangle
    (first second third : Cost) :
    first.shortfall third ≤ first.shortfall second + second.shortfall third := by
  let symbols := second.nonGenericSymbols ∪ third.nonGenericSymbols
  have notGeneric : ∀ symbol ∈ symbols, symbol.isGeneric = false :=
    fun _ => not_isGeneric_of_mem_union
  rw [first.shortfall_eq_sum Finset.subset_union_right notGeneric,
    first.shortfall_eq_sum Finset.subset_union_left notGeneric,
    second.shortfall_eq_sum Finset.subset_union_right notGeneric, sum_steps_add fun _ _ => rfl]
  apply sum_steps_mono
  intro symbol _
  omega

/-- Without a shortfall, no symbol that is worth mana is missing. -/
theorem count_le_of_shortfall_eq_zero
    {payer payment : Cost}
    (nothing : payer.shortfall payment = 0)
    {symbol : Symbol}
    (notGeneric : symbol.isGeneric = false)
    (worth : symbol.manaValue ≠ .zero) :
    payment.count symbol ≤ payer.count symbol := by
  rcases Nat.eq_zero_or_pos (payment.count symbol) with none | some
  · omega
  · have term := Finset.sum_eq_zero_iff.1 nothing symbol
      (mem_nonGenericSymbols.2 ⟨notGeneric, some⟩)
    rcases mul_eq_zero.1 term with worthless | covered
    · exact absurd (Amount.steps_injective worthless) worth
    · have missing := Nat.cast_eq_zero.1 covered
      omega

/-- A generic symbol that is worth mana is held once by costs of that generic mana. -/
theorem count_of_isGeneric
    (cost : Cost)
    {symbol : Symbol}
    (generic : symbol.isGeneric = true)
    (worth : symbol.manaValue ≠ .zero) :
    cost.count symbol = if symbol.manaValue = cost.generic then 1 else 0 := by
  have shape : symbol = .generic symbol.manaValue := by
    rcases symbol with (_ | _ | _ | _) | _
    case single.generic => rfl
    all_goals exact absurd generic Bool.false_ne_true
  split
  · rename_i same
    have held : (symbol, 1) ∈ cost.entries := by
      rcases cost.filter_isGeneric_entries with single | ⟨-, nothing⟩
      · rw [shape, same]
        exact List.mem_of_mem_filter (single ▸ List.mem_singleton_self _)
      · exact absurd (same.trans nothing) worth
    exact (mem_entries_iff.1 held).2
  · rename_i different
    by_contra some
    have held : (symbol, cost.count symbol) ∈ cost.entries :=
      mem_entries_iff.2 ⟨Nat.pos_of_ne_zero some, rfl⟩
    have symbolShape := congrArg Prod.fst (eq_of_mem_of_isGeneric held generic)
    exact different (congrArg Symbol.manaValue symbolShape)

/-- Costs that cover each other with finite generic mana miss nothing in each other. -/
theorem eq_of_mutual_cover
    {first second : Cost}
    (finite : first.generic ≠ .infinite)
    (covers : second.generic.steps + first.shortfall second ≤ first.generic.steps)
    (covered : first.generic.steps + second.shortfall first ≤ second.generic.steps) :
    first.generic = second.generic ∧ first.shortfall second = 0 ∧ second.shortfall first = 0 := by
  have same : first.generic.steps = second.generic.steps :=
    le_antisymm (le_self_add.trans covered) (le_self_add.trans covers)
  have notTop : first.generic.steps ≠ ⊤ := mt Amount.steps_eq_top_iff.1 finite
  have nothingMore {more : ℕ∞} (small : first.generic.steps + more ≤ first.generic.steps) :
      more = 0 := by
    rw [← nonpos_iff_eq_zero, ← ENat.add_le_add_iff_left notTop, add_zero]
    exact small
  rw [← same] at covers covered
  exact ⟨Amount.steps_injective same, nothingMore covers, nothingMore covered⟩

end Cost

namespace PureCost

/-- A pure cost covers another when it can be paid out of it completely. -/
def Covers
    (payer payment : PureCost) :
    Prop :=
  (Bill.payable payer).canPay (.payable payment) = .ok true

theorem covers_iff_canPay
    {payer payment : PureCost} :
    payer.Covers payment ↔ payer.cost.canPay payment.cost = true := by
  rw [Covers, Bill.canPay_payable payer (.payable payment) payment.isPure]
  exact ⟨Except.ok.inj, congrArg Except.ok⟩

/-- Covering is a matter of generic mana and the value of what is missing. -/
theorem covers_iff
    {payer payment : PureCost}
    (payerExact : payer.cost.generic.IsExact)
    (exact : payment.cost.generic.IsExact) :
    payer.Covers payment ↔
      payment.cost.generic.steps + payer.cost.shortfall payment.cost ≤
        payer.cost.generic.steps :=
  covers_iff_canPay.trans (Cost.canPay_iff payment.isPure payerExact exact)

/--
Covering is reflexive and transitive on exact amounts, and pure costs of finite generic mana that
cover each other have the same generic mana and as many of each symbol that is worth mana.
-/
theorem covers_preorder
    (first second third : PureCost)
    (firstExact : first.cost.generic.IsExact)
    (secondExact : second.cost.generic.IsExact)
    (thirdExact : third.cost.generic.IsExact) :
    first.Covers first ∧
      (first.Covers second → second.Covers third → first.Covers third) ∧
        (first.cost.generic ≠ .infinite → second.cost.generic ≠ .infinite →
          first.Covers second → second.Covers first →
            first.cost.generic = second.cost.generic ∧
              ∀ symbol : Symbol, symbol.manaValue ≠ .zero →
                first.cost.count symbol = second.cost.count symbol) := by
  rw [covers_iff firstExact firstExact, covers_iff firstExact secondExact,
    covers_iff secondExact thirdExact, covers_iff firstExact thirdExact,
    covers_iff secondExact firstExact]
  refine ⟨?_, ?_, ?_⟩
  · rw [Cost.shortfall_self, add_zero]
  · intro covers coversNext
    calc
      third.cost.generic.steps + first.cost.shortfall third.cost ≤
          third.cost.generic.steps +
            (second.cost.shortfall third.cost + first.cost.shortfall second.cost) := by
        rw [add_comm (second.cost.shortfall third.cost)]
        exact add_le_add_right (Cost.shortfall_triangle _ _ _) _
      _ = third.cost.generic.steps + second.cost.shortfall third.cost +
            first.cost.shortfall second.cost := (add_assoc _ _ _).symm
      _ ≤ second.cost.generic.steps + first.cost.shortfall second.cost :=
        add_le_add_left coversNext _
      _ ≤ first.cost.generic.steps := covers
  · intro firstFinite _ covers covered
    obtain ⟨sameGeneric, nothingMissing, nothingMore⟩ :=
      Cost.eq_of_mutual_cover firstFinite covers covered
    refine ⟨sameGeneric, ?_⟩
    intro symbol worth
    cases kind : symbol.isGeneric with
    | true =>
        rw [first.cost.count_of_isGeneric kind worth, second.cost.count_of_isGeneric kind worth,
          sameGeneric]
    | false =>
        exact Nat.le_antisymm (Cost.count_le_of_shortfall_eq_zero nothingMore kind worth)
          (Cost.count_le_of_shortfall_eq_zero nothingMissing kind worth)

/-- One generic mana, a white pip and tapping. -/
def oneWhiteTap : PureCost where
  cost := .ofSymbols [.generic .one, .pip .white, .single (.atom .tap)]
  isPure := by decide +kernel

/-- One generic mana, a white pip and a variable. -/
def oneWhiteX : PureCost where
  cost := .ofSymbols [.generic .one, .pip .white, .var .x]
  isPure := by decide +kernel

/-- One generic mana. -/
def oneGeneric : PureCost where
  cost := .ofSymbols [.generic .one]
  isPure := by decide +kernel

/-- Symbols that are worth nothing make no difference to what a cost covers. -/
theorem covers_tap_variable :
    oneWhiteTap.Covers oneWhiteTap ∧ oneWhiteTap.Covers oneGeneric ∧
      oneWhiteTap.cost.generic = oneWhiteX.cost.generic ∧
        oneWhiteTap.cost.count (.pip .white) = oneWhiteX.cost.count (.pip .white) := by
  obtain ⟨reflexive, transitive, antisymmetric⟩ :=
    covers_preorder oneWhiteTap oneWhiteX oneGeneric (by decide +kernel) (by decide +kernel)
      (by decide +kernel)
  have covers : oneWhiteTap.Covers oneWhiteX := by
    unfold Covers
    decide +kernel
  have covered : oneWhiteX.Covers oneWhiteTap := by
    unfold Covers
    decide +kernel
  have coversOne : oneWhiteX.Covers oneGeneric := by
    unfold Covers
    decide +kernel
  obtain ⟨sameGeneric, sameCounts⟩ :=
    antisymmetric (by decide +kernel) (by decide +kernel) covers covered
  exact ⟨reflexive, transitive covers coversOne, sameGeneric, sameCounts _ (by decide +kernel)⟩

end PureCost

end ManaCost
