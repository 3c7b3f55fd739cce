import Mathlib
import ManaCost.Cost.Payment
import ManaCost.Proofs.Cost.Counts
import ManaCost.Proofs.Tally.Weight

namespace ManaCost

/-!
# What a payment needs

The generic mana that a payment needs is walked up entry by entry, and a strict walk stops at the
first shortage.  Beside the walk stands the exact need of all entries.  The main statements are
`follows_of_demandFrom`, by which a finished walk has added up the exact need, and
`demandFrom_eq_error_iff`, by which stopping early depends on the whole payment only.
-/

/-- The same policy for a payment that may exceed its payer. -/
def Policy.lenient
    (policy : Policy) :
    Policy :=
  { policy with failOnExcess := false }

@[simp] theorem Policy.lenient_colorPaysGeneric
    (policy : Policy) :
    policy.lenient.colorPaysGeneric = policy.colorPaysGeneric :=
  rfl

@[simp] theorem Policy.lenient_failOnExcess
    (policy : Policy) :
    policy.lenient.failOnExcess = false :=
  rfl

namespace Cost

/-- The steps of generic mana that an entry of a payment needs. -/
def neededFor
    (payer : Cost)
    (policy : Policy)
    (entry : Symbol × Nat) :
    ℕ∞ :=
  if entry.1.isGeneric then
    entry.1.manaValue.steps * entry.2
  else if policy.colorPaysGeneric then
    entry.1.manaValue.steps * (entry.2 - payer.count entry.1 : Nat)
  else
    0

/-- The steps of generic mana that the entries of a payment need. -/
def neededForAll
    (payer : Cost)
    (policy : Policy)
    (entries : Tally) :
    ℕ∞ :=
  (entries.map (payer.neededFor policy)).sum

/-- A payer lacks an entry when it has fewer copies and generic mana may not pay for them. -/
def Lacks
    (payer : Cost)
    (policy : Policy)
    (entry : Symbol × Nat) :
    Prop :=
  policy.colorPaysGeneric = false ∧ entry.1.isGeneric = false ∧ payer.count entry.1 < entry.2

theorem demandOf_of_isGeneric
    (payer : Cost)
    (policy : Policy)
    (needed : Amount)
    {entry : Symbol × Nat}
    (generic : entry.1.isGeneric = true) :
    payer.demandOf policy needed entry.1 entry.2 =
      .ok (needed.add (entry.1.manaValue.scale entry.2)) := by
  rw [demandOf, Symbol.genericAmount?_eq, if_pos generic]

/-- Of any other entry, what the payer lacks is needed. -/
theorem demandOf_of_not_isGeneric
    (payer : Cost)
    (policy : Policy)
    (needed : Amount)
    {entry : Symbol × Nat}
    (notGeneric : entry.1.isGeneric = false) :
    payer.demandOf policy needed entry.1 entry.2 =
      if entry.2 - payer.count entry.1 = 0 then
        .ok needed
      else if policy.colorPaysGeneric then
        .ok (needed.add (entry.1.manaValue.scale (entry.2 - payer.count entry.1)))
      else if policy.failOnExcess then
        .error (.lacks (entry.2 - payer.count entry.1) entry.1)
      else
        .ok needed := by
  rw [demandOf, Symbol.genericAmount?_eq, notGeneric]
  rfl

/-- An entry stops a payment when the payment is strict and the payer lacks the entry. -/
theorem demandOf_eq_error_iff
    (payer : Cost)
    (policy : Policy)
    (needed : Amount)
    (entry : Symbol × Nat) :
    (∃ shortage, payer.demandOf policy needed entry.1 entry.2 = .error shortage) ↔
      policy.failOnExcess = true ∧ payer.Lacks policy entry := by
  unfold Lacks
  cases kind : entry.1.isGeneric with
  | true =>
      simp [demandOf_of_isGeneric payer policy needed kind]
  | false =>
      rw [demandOf_of_not_isGeneric payer policy needed kind]
      by_cases enough : entry.2 - payer.count entry.1 = 0
      · have covered : ¬payer.count entry.1 < entry.2 := by omega
        simp [enough, covered]
      · have missing : payer.count entry.1 < entry.2 := by omega
        cases colored : policy.colorPaysGeneric <;> cases strict : policy.failOnExcess <;>
          simp [enough, missing]

/-- An entry that does not stop a payment adds its need to what is needed already. -/
theorem follows_of_demandOf
    {payer : Cost}
    {policy : Policy}
    {needed more : Amount}
    {total : ℕ∞}
    {entry : Symbol × Nat}
    (whole : entry.1.manaValue.Follows entry.1.manaValue.steps)
    (follows : needed.Follows total)
    (reached : payer.demandOf policy needed entry.1 entry.2 = .ok more) :
    more.Follows (total + payer.neededFor policy entry) := by
  have copies := Amount.follows_scale whole
  unfold neededFor
  cases kind : entry.1.isGeneric with
  | true =>
      rw [demandOf_of_isGeneric payer policy needed kind] at reached
      obtain rfl := Except.ok.inj reached
      exact follows.add (copies entry.2)
  | false =>
      rw [demandOf_of_not_isGeneric payer policy needed kind] at reached
      rw [if_neg Bool.false_ne_true]
      split at reached
      · rename_i enough
        obtain rfl := Except.ok.inj reached
        rw [enough, Nat.cast_zero, mul_zero, ite_self, add_zero]
        exact follows
      · split at reached
        · rename_i colored
          obtain rfl := Except.ok.inj reached
          rw [if_pos colored]
          exact follows.add (copies _)
        · rename_i uncolored
          rw [if_neg uncolored, add_zero]
          split at reached
          · simp at reached
          · obtain rfl := Except.ok.inj reached
            exact follows

/-- A strict payment needs for an entry what a lenient one needs, if it goes on. -/
theorem demandOf_lenient
    {payer : Cost}
    {policy : Policy}
    {needed more : Amount}
    {entry : Symbol × Nat}
    (reached : payer.demandOf policy needed entry.1 entry.2 = .ok more) :
    payer.demandOf policy.lenient needed entry.1 entry.2 = .ok more := by
  cases kind : entry.1.isGeneric with
  | true =>
      rw [demandOf_of_isGeneric _ _ _ kind] at reached ⊢
      exact reached
  | false =>
      rw [demandOf_of_not_isGeneric _ _ _ kind] at reached ⊢
      by_cases enough : entry.2 - payer.count entry.1 = 0
      · rw [if_pos enough] at reached ⊢
        exact reached
      · rw [if_neg enough] at reached ⊢
        by_cases colored : policy.colorPaysGeneric = true
        · rw [if_pos colored] at reached
          rw [Policy.lenient_colorPaysGeneric, if_pos colored]
          exact reached
        · rw [if_neg colored] at reached
          rw [Policy.lenient_colorPaysGeneric, if_neg colored, Policy.lenient_failOnExcess,
            if_neg Bool.false_ne_true]
          split at reached
          · simp at reached
          · exact reached

/-- A walk gives the exact need of its entries, beside what was needed already. -/
theorem follows_of_demandFrom
    {payer : Cost}
    {policy : Policy}
    {entries : Tally}
    {needed final : Amount}
    {total : ℕ∞}
    (whole : ∀ entry ∈ entries, entry.1.manaValue.Follows entry.1.manaValue.steps)
    (follows : needed.Follows total)
    (reached : payer.demandFrom policy needed entries = .ok final) :
    final.Follows (total + payer.neededForAll policy entries) := by
  induction entries generalizing needed total with
  | nil =>
      obtain rfl := Except.ok.inj reached
      rw [neededForAll, List.map_nil, List.sum_nil, add_zero]
      exact follows
  | cons entry rest inductionHypothesis =>
      rw [demandFrom] at reached
      rw [neededForAll, List.map_cons, List.sum_cons, ← add_assoc]
      split at reached
      · simp at reached
      · rename_i more step
        split at reached
        · simp at reached
        · have next := follows_of_demandOf (whole entry (.head rest)) follows step
          exact inductionHypothesis (fun other member => whole other (.tail entry member)) next
            reached

/-- A lenient walk reaches the end. -/
theorem exists_demandFrom_eq_ok
    {payer : Cost}
    {policy : Policy}
    (lenient : policy.failOnExcess = false)
    (entries : Tally)
    (needed : Amount) :
    ∃ final, payer.demandFrom policy needed entries = .ok final := by
  induction entries generalizing needed with
  | nil =>
      exact ⟨needed, rfl⟩
  | cons entry rest inductionHypothesis =>
      rw [demandFrom]
      cases step : payer.demandOf policy needed entry.1 entry.2 with
      | error shortage =>
          have stopped := (payer.demandOf_eq_error_iff policy needed entry).1 ⟨shortage, step⟩
          rw [lenient] at stopped
          exact absurd stopped.1 Bool.false_ne_true
      | ok more =>
          rw [lenient]
          exact inductionHypothesis more

/--
A strict walk stops exactly when the exact need of all entries exceeds what the payer has, or the
payer lacks one of them.  Where it stops does not matter: needs only grow.
-/
theorem demandFrom_eq_error_iff
    {payer : Cost}
    {policy : Policy}
    {entries : Tally}
    {needed : Amount}
    {total : ℕ∞}
    (strict : policy.failOnExcess = true)
    (payerExact : payer.generic.IsExact)
    (whole : ∀ entry ∈ entries, entry.1.manaValue.Follows entry.1.manaValue.steps)
    (follows : needed.Follows total)
    (covered : total ≤ payer.generic.steps) :
    (∃ shortage, payer.demandFrom policy needed entries = .error shortage) ↔
      payer.generic.steps < total + payer.neededForAll policy entries ∨
        ∃ entry ∈ entries, payer.Lacks policy entry := by
  induction entries generalizing needed total with
  | nil =>
      simp [demandFrom, neededForAll, covered.not_gt]
  | cons entry rest inductionHypothesis =>
      have stops := payer.demandOf_eq_error_iff policy needed entry
      rw [demandFrom, List.exists_mem_cons_iff]
      cases step : payer.demandOf policy needed entry.1 entry.2 with
      | error shortage =>
          have lacking := (stops.1 ⟨shortage, step⟩).2
          exact ⟨fun _ => .inr (.inl lacking), fun _ => ⟨shortage, rfl⟩⟩
      | ok more =>
          have notLacking : ¬payer.Lacks policy entry := by
            intro lacking
            obtain ⟨shortage, stopped⟩ := stops.2 ⟨strict, lacking⟩
            rw [step] at stopped
            exact absurd stopped (by simp)
          have next := follows_of_demandOf (whole entry (.head rest)) follows step
          have exceeds := Amount.isLess_iff_of_follows payerExact next
          have sum : total + payer.neededForAll policy (entry :: rest) =
              total + payer.neededFor policy entry + payer.neededForAll policy rest := by
            rw [neededForAll, List.map_cons, List.sum_cons, ← add_assoc]
            rfl
          have grows : total + payer.neededFor policy entry ≤
              total + payer.neededFor policy entry + payer.neededForAll policy rest :=
            le_self_add
          dsimp only
          rw [strict, Bool.true_and, sum]
          by_cases exceeded : payer.generic.isLess more = true
          · rw [if_pos exceeded]
            exact ⟨fun _ => .inl ((exceeds.1 exceeded).trans_le grows), fun _ => ⟨_, rfl⟩⟩
          · have stillCovered := not_lt.1 (mt exceeds.2 exceeded)
            have restWhole := fun other member => whole other (.tail entry member)
            rw [if_neg exceeded, inductionHypothesis restWhole next stillCovered, or_iff_right
              notLacking]

/-- A strict walk that reaches the end gives the need of a lenient one. -/
theorem demandFrom_lenient
    {payer : Cost}
    {policy : Policy}
    {entries : Tally}
    {needed final : Amount}
    (reached : payer.demandFrom policy needed entries = .ok final) :
    payer.demandFrom policy.lenient needed entries = .ok final := by
  induction entries generalizing needed with
  | nil =>
      exact reached
  | cons entry rest inductionHypothesis =>
      rw [demandFrom] at reached ⊢
      split at reached
      · simp at reached
      · rename_i more step
        rw [demandOf_lenient step]
        split at reached
        · simp at reached
        · exact inductionHypothesis reached

end Cost

end ManaCost
