import ManaCost.Proofs.Cost.Demand
import ManaCost.Proofs.Cost.Partition
import ManaCost.Proofs.Cost.Remainder

namespace ManaCost

/-!
# Paying as splitting

A payment walks over symbols, while a split compares two costs at once.  Where each pip of a payment
is either at hand or let go, the walk comes to the generic mana of the payment, and a finite payer
keeps just what the split leaves to it.  The main statements are `reduce_taking` and
`reduce_eq_leftOnly_of_within`.
-/

/-- Each symbol is paid with its own copies as far as they go. -/
def Policy.taking : Policy where
  colorPaysGeneric := false
  failOnExcess := false

namespace Cost

variable {payer payment : Cost} {policy : Policy}

/-- An entry that is let go, or of which the payer has enough, needs nothing. -/
def NeedsNothing
    (payer : Cost)
    (policy : Policy)
    (entry : Symbol × Nat) :
    Prop :=
  ∀ needed, payer.demandOf policy needed entry.1 entry.2 = .ok needed

theorem needsNothing_taking
    {entry : Symbol × Nat}
    (notGeneric : entry.1.isGeneric = false) :
    payer.NeedsNothing .taking entry := by
  intro needed
  rw [demandOf_of_not_isGeneric payer .taking needed notGeneric]
  split <;> rfl

theorem needsNothing_of_count_le
    {entry : Symbol × Nat}
    (notGeneric : entry.1.isGeneric = false)
    (enough : entry.2 ≤ payer.count entry.1) :
    payer.NeedsNothing policy entry := by
  intro needed
  rw [demandOf_of_not_isGeneric payer policy needed notGeneric,
    if_pos (Nat.sub_eq_zero_of_le enough)]

/-- A walk passes over pips that need nothing. -/
theorem demandFrom_filter_isGeneric
    {entries : Tally}
    {needed : Amount}
    (nothing : ∀ entry ∈ entries, entry.1.isGeneric = false → payer.NeedsNothing policy entry)
    (covered : (policy.failOnExcess && payer.generic.isLess needed) = false) :
    payer.demandFrom policy needed entries =
      payer.demandFrom policy needed (entries.filter fun entry => entry.1.isGeneric) := by
  induction entries generalizing needed with
  | nil =>
      rfl
  | cons entry rest inductionHypothesis =>
      have restNothing := fun other member => nothing other (.tail entry member)
      cases kind : entry.1.isGeneric with
      | false =>
          rw [List.filter_cons_of_neg (by simp [kind]), demandFrom,
            nothing entry (.head rest) kind needed]
          dsimp only
          rw [covered, if_neg Bool.false_ne_true, inductionHypothesis restNothing covered]
      | true =>
          rw [List.filter_cons_of_pos (by simp [kind]), demandFrom, demandFrom,
            demandOf_of_isGeneric payer policy needed kind]
          dsimp only
          split
          · rfl
          · rename_i stillCovered
            exact inductionHypothesis restNothing (Bool.eq_false_of_not_eq_true stillCovered)

/-- A payment of pips that need nothing needs its generic mana. -/
theorem demand_eq_generic
    (nothing : ∀ entry ∈ payment.entries, entry.1.isGeneric = false →
      payer.NeedsNothing policy entry)
    (covered : (policy.failOnExcess && payer.generic.isLess payment.generic) = false) :
    payer.demand payment policy = .ok payment.generic := by
  have start : payer.generic.isLess .zero = false := by
    rw [← Bool.not_eq_true, Amount.isLess_iff, Amount.steps_zero]
    exact not_lt_zero
  rw [demand, demandFrom_filter_isGeneric nothing (by rw [start, Bool.and_false])]
  rcases payment.filter_isGeneric_entries with single | ⟨none, noGeneric⟩
  · have paid : Amount.zero.add (payment.generic.scale 1) = payment.generic := by
      rw [Amount.scale_one, Amount.zero_add]
    rw [single, demandFrom, demandOf_of_isGeneric payer policy .zero rfl]
    dsimp only [Symbol.manaValue, PureSymbol.manaValue]
    rw [paid, covered, if_neg Bool.false_ne_true]
    rfl
  · rw [none, noGeneric]
    rfl

/-- A finite payer keeps what only it has when the payment needs its own generic mana. -/
theorem orFree_remaining_eq_leftOnly
    (finite : payer.generic ≠ .infinite) :
    (ofTally (payer.remaining payment payment.generic)).orFree =
      (Partition.of payer payment).leftOnly.orFree := by
  refine eq_of_count_eq_of_generic_eq (isEmpty_orFree _) (isEmpty_orFree _) ?_ ?_
  · intro symbol notGeneric
    rw [count_orFree_remaining payer payment _ notGeneric, count_orFree _ notGeneric,
      Partition.count_leftOnly payer payment notGeneric]
  · rw [generic_orFree_remaining, generic_orFree, Partition.generic_leftOnly,
      Amount.afterPaying_eq_difference finite]

/-- Taking what there is leaves what only the payer has. -/
theorem reduce_taking
    (payment : Cost)
    (finite : payer.generic ≠ .infinite) :
    payer.reduce payment .taking = .ok (Partition.of payer payment).leftOnly.orFree := by
  have walk : payer.demand payment .taking = .ok payment.generic :=
    demand_eq_generic (fun _ _ notGeneric => needsNothing_taking notGeneric) rfl
  exact reduce_eq_ok_iff.2 ⟨payment.generic, walk, orFree_remaining_eq_leftOnly finite⟩

/-- A payment that lies within its payer needs its own generic mana, whatever the policy. -/
theorem demand_eq_generic_of_within
    (policy : Policy)
    (within : payment.Within payer) :
    payer.demand payment policy = .ok payment.generic := by
  apply demand_eq_generic
  · intro entry member notGeneric
    apply needsNothing_of_count_le notGeneric
    rw [← (mem_entries_iff.1 member).2]
    exact within.count_le entry.1 notGeneric
  · have notLess : payer.generic.isLess payment.generic = false := by
      rw [← Bool.not_eq_true, Amount.isLess_iff, not_lt]
      exact within.generic_le
    rw [notLess, Bool.and_false]

/-- A payment that lies within its payer leaves what only the payer has, whatever the policy. -/
theorem reduce_eq_leftOnly_of_within
    (policy : Policy)
    (finite : payer.generic ≠ .infinite)
    (within : payment.Within payer) :
    payer.reduce payment policy = .ok (Partition.of payer payment).leftOnly.orFree :=
  reduce_eq_ok_iff.2
    ⟨payment.generic, demand_eq_generic_of_within policy within,
      orFree_remaining_eq_leftOnly finite⟩

end Cost

end ManaCost
