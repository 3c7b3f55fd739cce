import Mathlib
import ManaCost.Proofs.Cost.Canonical
import ManaCost.Proofs.Cost.Remainder

namespace ManaCost

/-!
# Charges

A charge asks for copies of symbols and for generic mana.  It is met or not met by a payer without a
walk, and two charges one after another are one charge.  The main statements are
`isSettled_remainder?`, by which a payment settles its charge, `IsSettled.bind`, by which two steps
settle the sum of their charges, and `IsSettled.unique`, by which a charge has one outcome.
-/

/-- Copies of symbols and steps of generic mana that are asked of a payer. -/
structure Charge where
  copies : Symbol → Nat
  generic : ℕ∞

namespace Charge

instance : Add Charge where
  add first second :=
    { copies := fun symbol => first.copies symbol + second.copies symbol
      generic := first.generic + second.generic }

@[simp] theorem copies_add
    (first second : Charge)
    (symbol : Symbol) :
    (first + second).copies symbol = first.copies symbol + second.copies symbol :=
  rfl

@[simp] theorem generic_add
    (first second : Charge) :
    (first + second).generic = first.generic + second.generic :=
  rfl

end Charge

namespace Cost

/-- What is left of a cost when another is paid out of it, if the payment goes through. -/
def remainder?
    (payer payment : Cost)
    (policy : Policy) :
    Option Cost :=
  (payer.reduce payment policy).toOption

/-- A payer falls short of a charge in generic mana, or in a symbol that generic mana may not pay
for. -/
def FallsShort
    (payer : Cost)
    (policy : Policy)
    (charge : Charge) :
    Prop :=
  payer.generic.steps < charge.generic ∨
    policy.colorPaysGeneric = false ∧
      ∃ symbol : Symbol, symbol.isGeneric = false ∧ payer.count symbol < charge.copies symbol

/-- A cost with symbols is left when a charge is taken out of a payer. -/
structure IsLeft
    (payer : Cost)
    (charge : Charge)
    (left : Cost) :
    Prop where
  count_eq : ∀ symbol : Symbol, symbol.isGeneric = false →
    left.count symbol = payer.count symbol - charge.copies symbol
  generic_eq : left.generic.steps =
    if payer.generic = .infinite then ⊤ else payer.generic.steps - charge.generic
  some_left : left.isEmpty = false

/-- An outcome settles a charge when it fails where a strict payer falls short, and otherwise leaves
what is left after the charge. -/
structure IsSettled
    (payer : Cost)
    (policy : Policy)
    (charge : Charge)
    (outcome : Option Cost) :
    Prop where
  fails_iff : outcome = none ↔ policy.failOnExcess = true ∧ payer.FallsShort policy charge
  isLeft : ∀ left, outcome = some left → payer.IsLeft charge left

variable {payer payment left final : Cost} {policy : Policy} {first second charge : Charge}

theorem remainder?_eq_none_iff :
    payer.remainder? payment policy = none ↔
      ∃ shortage, payer.demand payment policy = .error shortage := by
  simp only [← reduce_eq_error_iff, remainder?]
  cases payer.reduce payment policy <;> simp [Except.toOption]

theorem remainder?_eq_some_iff :
    payer.remainder? payment policy = some left ↔ payer.reduce payment policy = .ok left := by
  rw [remainder?]
  cases payer.reduce payment policy <;> simp [Except.toOption]

/-- A payment settles the charge of its symbols, of the total that its generic mana follows and of
the generic mana that missing copies need. -/
theorem isSettled_remainder?
    {total : ℕ∞}
    (pure : payment.isPure = true)
    (payerExact : payer.generic.IsExact)
    (generic : payment.generic.Follows total) :
    payer.IsSettled policy ⟨payment.count, total + payer.missingNeed payment policy⟩
      (payer.remainder? payment policy) where
  fails_iff :=
    remainder?_eq_none_iff.trans (demand_eq_error_iff_of_follows pure payerExact generic)
  isLeft := by
    intro left paid
    obtain ⟨needed, walk, rfl⟩ := reduce_eq_ok_iff.1 (remainder?_eq_some_iff.1 paid)
    have follows := follows_of_demand_of_follows pure generic walk
    exact {
      count_eq := fun _ => count_orFree_remaining payer payment needed
      generic_eq := by
        rw [generic_orFree_remaining, Amount.steps_afterPaying payerExact follows]
      some_left := isEmpty_orFree _ }

/-- What a covered payment leaves is left after its symbols, its generic mana and the value of all
missing copies are charged. -/
theorem isLeft_of_covering
    (pure : payment.isPure = true)
    (payerExact : payer.generic.IsExact)
    (exact : payment.generic.IsExact)
    (paid : payer.remainder? payment .covering = some left) :
    payer.IsLeft ⟨payment.count, payment.generic.steps + payer.shortfall payment⟩ left :=
  (isSettled_remainder? pure payerExact (Amount.follows_of_isExact exact)).isLeft left paid

theorem charge_le_of_covering
    (pure : payment.isPure = true)
    (payerExact : payer.generic.IsExact)
    (exact : payment.generic.IsExact)
    (paid : payer.remainder? payment .covering = some left) :
    payment.generic.steps + payer.shortfall payment ≤ payer.generic.steps := by
  by_contra short
  have settled : payer.IsSettled .covering _ (payer.remainder? payment .covering) :=
    isSettled_remainder? pure payerExact (Amount.follows_of_isExact exact)
  have fails := settled.fails_iff.2 ⟨rfl, .inl (not_le.1 short)⟩
  simp [fails] at paid

theorem isExact_of_remainder?
    (pure : payment.isPure = true)
    (payerExact : payer.generic.IsExact)
    (exact : payment.generic.IsExact)
    (paid : payer.remainder? payment policy = some left) :
    left.generic.IsExact := by
  obtain ⟨needed, walk, rfl⟩ := reduce_eq_ok_iff.1 (remainder?_eq_some_iff.1 paid)
  rw [generic_orFree_remaining]
  exact Amount.isExact_afterPaying payerExact (follows_of_demand pure exact walk)

theorem isPure_of_remainder?
    (payerPure : payer.isPure = true)
    (paid : payer.remainder? payment policy = some left) :
    left.isPure = true := by
  obtain ⟨needed, walk, rfl⟩ := reduce_eq_ok_iff.1 (remainder?_eq_some_iff.1 paid)
  apply isPure_of_count_le payerPure
  intro symbol notGeneric
  rw [count_orFree_remaining payer payment needed notGeneric]
  exact Nat.sub_le _ _

namespace IsLeft

theorem infinite_iff
    (isLeft : payer.IsLeft charge left) :
    left.generic = .infinite ↔ payer.generic = .infinite := by
  rw [← Amount.steps_eq_top_iff, isLeft.generic_eq]
  split
  · simp [*]
  · rename_i finite
    have notTop := mt Amount.steps_eq_top_iff.1 finite
    simp [finite, notTop]

/-- What is left after two charges is left after both together. -/
theorem trans
    (isLeft : payer.IsLeft first left)
    (isFinal : left.IsLeft second final) :
    payer.IsLeft (first + second) final where
  count_eq := by
    intro symbol notGeneric
    rw [isFinal.count_eq symbol notGeneric, isLeft.count_eq symbol notGeneric, Nat.sub_sub,
      Charge.copies_add]
  generic_eq := by
    rw [isFinal.generic_eq, isLeft.generic_eq, Charge.generic_add]
    by_cases infinite : payer.generic = .infinite
    · rw [if_pos (isLeft.infinite_iff.2 infinite), if_pos infinite]
    · rw [if_neg (mt isLeft.infinite_iff.1 infinite), if_neg infinite, if_neg infinite, tsub_tsub]
  some_left := isFinal.some_left

theorem unique
    (isLeft : payer.IsLeft charge left)
    (isFinal : payer.IsLeft charge final) :
    left = final := by
  refine eq_of_count_eq_of_generic_eq isLeft.some_left isFinal.some_left ?_ ?_
  · intro symbol notGeneric
    rw [isLeft.count_eq symbol notGeneric, isFinal.count_eq symbol notGeneric]
  · exact Amount.steps_injective (isLeft.generic_eq.trans isFinal.generic_eq.symm)

/-- A payer falls short of two charges when it falls short of the first, or what is left falls short
of the second. -/
theorem fallsShort_add_iff
    (isLeft : payer.IsLeft first left) :
    payer.FallsShort policy (first + second) ↔
      payer.FallsShort policy first ∨ left.FallsShort policy second := by
  have generic : payer.generic.steps < first.generic + second.generic ↔
      payer.generic.steps < first.generic ∨ left.generic.steps < second.generic := by
    rw [isLeft.generic_eq]
    by_cases infinite : payer.generic = .infinite
    · simp [infinite]
    · -- Subtraction is truncated, so the two sides compare only where the first charge is met.
      rw [if_neg infinite]
      by_cases short : payer.generic.steps < first.generic
      · simp [short, short.trans_le le_self_add]
      · have enough := not_lt.1 short
        have notTop := ne_top_of_le_ne_top (mt Amount.steps_eq_top_iff.1 infinite) enough
        rw [or_iff_right short,
          (ENat.addLECancellable_of_ne_top notTop).tsub_lt_iff_left enough]
  have copies : (∃ symbol : Symbol, symbol.isGeneric = false ∧
        payer.count symbol < first.copies symbol + second.copies symbol) ↔
      (∃ symbol : Symbol, symbol.isGeneric = false ∧
        payer.count symbol < first.copies symbol) ∨
      ∃ symbol : Symbol, symbol.isGeneric = false ∧
        left.count symbol < second.copies symbol := by
    rw [← exists_or]
    refine exists_congr fun symbol => ?_
    rw [← and_or_left]
    refine and_congr_right fun notGeneric => ?_
    rw [isLeft.count_eq symbol notGeneric]
    omega
  simp only [FallsShort, Charge.generic_add, Charge.copies_add, generic, copies, and_or_left]
  exact or_or_or_comm

end IsLeft

theorem FallsShort.add_right
    (short : payer.FallsShort policy first)
    (second : Charge) :
    payer.FallsShort policy (first + second) := by
  rcases short with less | ⟨uncolored, symbol, notGeneric, fewer⟩
  · exact .inl (less.trans_le le_self_add)
  · exact .inr ⟨uncolored, symbol, notGeneric, fewer.trans_le (Nat.le_add_right _ _)⟩

namespace IsSettled

variable {outcome other : Option Cost}

theorem unique
    (settled : payer.IsSettled policy charge outcome)
    (otherSettled : payer.IsSettled policy charge other) :
    outcome = other := by
  have fails : outcome = none ↔ other = none :=
    settled.fails_iff.trans otherSettled.fails_iff.symm
  cases outcome with
  | none => exact (fails.1 rfl).symm
  | some left =>
      cases other with
      | none => exact fails.2 rfl
      | some final => rw [(settled.isLeft left rfl).unique (otherSettled.isLeft final rfl)]

/-- Two steps settle the sum of their charges. -/
theorem bind
    {next : Cost → Option Cost}
    (settled : payer.IsSettled policy first outcome)
    (nextSettled : ∀ left, outcome = some left → left.IsSettled policy second (next left)) :
    payer.IsSettled policy (first + second) (outcome.bind next) where
  fails_iff := by
    cases outcome with
    | none =>
        obtain ⟨strict, short⟩ := settled.fails_iff.1 rfl
        simp [strict, short.add_right second]
    | some left =>
        -- The first step went through, so a failure is one of what it has left.
        have goesOn : ¬(policy.failOnExcess = true ∧ payer.FallsShort policy first) :=
          fun fails => absurd (settled.fails_iff.2 fails) (Option.some_ne_none left)
        rw [Option.bind_some, (nextSettled left rfl).fails_iff,
          (settled.isLeft left rfl).fallsShort_add_iff]
        tauto
  isLeft := by
    intro final reached
    obtain ⟨left, paid, nextPaid⟩ := Option.bind_eq_some_iff.1 reached
    exact (settled.isLeft left paid).trans ((nextSettled left paid).isLeft final nextPaid)

/-- Only the copies of symbols that are not generic matter in a charge. -/
theorem congr
    (settled : payer.IsSettled policy first outcome)
    (sameCopies : ∀ symbol : Symbol, symbol.isGeneric = false →
      first.copies symbol = second.copies symbol)
    (sameGeneric : first.generic = second.generic) :
    payer.IsSettled policy second outcome where
  fails_iff := by
    rw [settled.fails_iff, FallsShort, FallsShort, sameGeneric]
    refine and_congr_right fun _ => or_congr_right (and_congr_right fun _ => ?_)
    refine exists_congr fun symbol => and_congr_right fun notGeneric => ?_
    rw [sameCopies symbol notGeneric]
  isLeft := by
    intro left reached
    have isLeft := settled.isLeft left reached
    exact {
      count_eq := fun symbol notGeneric => by
        rw [isLeft.count_eq symbol notGeneric, sameCopies symbol notGeneric]
      generic_eq := by rw [isLeft.generic_eq, sameGeneric]
      some_left := isLeft.some_left }

end IsSettled

end Cost

end ManaCost
