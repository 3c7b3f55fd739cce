import Mathlib
import ManaCost.Proofs.Cost.Required

namespace ManaCost.Cost

/-!
# What a payment leaves

A payment that goes through leaves the difference of payer and payment, symbol by symbol, or `{0}`
where nothing is left.  The main statement is `isRemainder_of_follows`: what the payer keeps after
its exact need is paid is that difference.
-/

/-- What is left of a payer is the difference of the counts and of the generic mana, or `{0}`. -/
structure IsRemainder
    (payer payment : Cost)
    (policy : Policy)
    (remainder : Cost) :
    Prop where
  count_eq : ∀ symbol : Symbol, symbol.isGeneric = false →
    remainder.count symbol = payer.count symbol - payment.count symbol
  generic_eq : remainder.generic.steps =
    if payer.generic = .infinite then ⊤ else payer.generic.steps - payer.required payment policy
  free_of_nothing :
    (∀ symbol : Symbol, symbol.isGeneric = false → payer.count symbol ≤ payment.count symbol) →
      payer.generic ≠ .infinite →
        payer.generic.steps ≤ payer.required payment policy → remainder = free

/-- Of a symbol that is not generic a payer keeps what the payment leaves. -/
theorem copies_kept
    (payer payment : Cost)
    {symbol : Symbol}
    (notGeneric : symbol.isGeneric = false) :
    (payer.kept payment).copies symbol = payer.count symbol - payment.count symbol :=
  payer.copies_mapCounts (fun symbol copies => copies - payment.count symbol) (Nat.zero_sub _)
    notGeneric

/-- What a payer keeps of its generic mana: all that is left as one symbol, or none. -/
theorem keptGeneric_cases
    (payer : Cost)
    (needed : Amount) :
    payer.keptGeneric needed = [(.generic (payer.generic.afterPaying needed), 1)] ∨
      payer.keptGeneric needed = [] ∧ payer.generic = .zero := by
  have replaced : payer.keptGeneric needed =
      (payer.entries.filter fun entry => entry.1.isGeneric).map fun _ =>
        (.generic (payer.generic.afterPaying needed), 1) := by
    unfold keptGeneric
    induction payer.entries with
    | nil =>
        rfl
    | cons entry rest inductionHypothesis =>
        rw [List.filterMap_cons, inductionHypothesis, Symbol.genericAmount?_eq]
        cases kind : entry.1.isGeneric <;> simp [kind]
  rw [replaced]
  rcases payer.filter_isGeneric_entries with single | ⟨none, nothing⟩
  · rw [single]
    exact .inl rfl
  · rw [none]
    exact .inr ⟨rfl, nothing⟩

/-- Everything that a payer keeps. -/
def remaining
    (payer payment : Cost)
    (needed : Amount) :
    Tally :=
  payer.kept payment ++ payer.keptGeneric needed

/-- What a payer keeps in all has copies of its own symbols only. -/
theorem copies_remaining
    (payer payment : Cost)
    (needed : Amount)
    {symbol : Symbol}
    (notGeneric : symbol.isGeneric = false) :
    (payer.remaining payment needed).copies symbol =
      payer.count symbol - payment.count symbol := by
  rw [remaining, Tally.copies_append, copies_kept payer payment notGeneric]
  rcases payer.keptGeneric_cases needed with single | ⟨none, -⟩
  · have different : Symbol.generic (payer.generic.afterPaying needed) ≠ symbol := by
      rintro rfl
      exact Bool.noConfusion notGeneric
    rw [single, Tally.copies_cons, if_neg different, Tally.copies_nil]
    rfl
  · rw [none, Tally.copies_nil, Nat.add_zero]

/-- The generic mana that a payer keeps in all is what paying leaves of its own. -/
theorem genericTotal_remaining
    (payer payment : Cost)
    (needed : Amount) :
    (payer.remaining payment needed).present.genericTotal =
      payer.generic.afterPaying needed := by
  have pips : (payer.kept payment).present.filter (fun entry => entry.1.isGeneric) = [] :=
    payer.filter_isGeneric_mapCounts fun symbol copies => copies - payment.count symbol
  have parts : (payer.remaining payment needed).present =
      (payer.kept payment).present ++ (payer.keptGeneric needed).present :=
    List.filter_append _ _
  rw [← Tally.genericTotal_filter, parts, List.filter_append, pips, List.nil_append,
    Tally.genericTotal_filter]
  rcases payer.keptGeneric_cases needed with single | ⟨none, nothing⟩
  · rw [single]
    exact Tally.genericTotal_single _
  · rw [none, nothing, Amount.zero_afterPaying]
    rfl

/-- Settling changes nothing about what is left of the counts of a cost. -/
theorem settledCounts_remaining
    (payer payment : Cost)
    (needed : Amount)
    {symbol : Symbol}
    (notGeneric : symbol.isGeneric = false) :
    Tally.settledCounts (payer.remaining payment needed).copies symbol =
      payer.count symbol - payment.count symbol := by
  have few (color : Color) : payer.count (.half color) - payment.count (.half color) ≤ 1 :=
    (Nat.sub_le _ _).trans (payer.count_half_le_one color)
  calc
    Tally.settledCounts (payer.remaining payment needed).copies symbol =
        Tally.settledCounts (fun other => payer.count other - payment.count other) symbol :=
      Tally.settledCounts_congr (fun _ => copies_remaining payer payment needed) notGeneric
    _ = payer.count symbol - payment.count symbol := Tally.settledCounts_eq few symbol

/-- A cost, or `{0}` when it has no symbols. -/
def orFree
    (cost : Cost) :
    Cost :=
  if cost.isEmpty then free else cost

/-- A payment fails with the shortage at which the walk over it stops. -/
theorem reduce_eq_error_iff
    {payer payment : Cost}
    {policy : Policy}
    {shortage : Shortage} :
    payer.reduce payment policy = .error shortage ↔
      payer.demand payment policy = .error shortage := by
  unfold reduce reduceTally
  cases payer.demand payment policy <;> simp

/-- A payment that goes through leaves what the payer keeps after its need, or `{0}`. -/
theorem reduce_eq_ok_iff
    {payer payment remainder : Cost}
    {policy : Policy} :
    payer.reduce payment policy = .ok remainder ↔
      ∃ needed,
        payer.demand payment policy = .ok needed ∧
          (ofTally (payer.remaining payment needed)).orFree = remainder := by
  cases walk : payer.demand payment policy with
  | error shortage =>
      simp [reduce, reduceTally, walk]
  | ok needed =>
      have kept : payer.reduce payment policy =
          .ok (ofTally (payer.remaining payment needed)).orFree := by
        rw [reduce, reduceTally, walk]
        rfl
      simp [kept]

theorem count_orFree
    (cost : Cost)
    {symbol : Symbol}
    (notGeneric : symbol.isGeneric = false) :
    cost.orFree.count symbol = cost.count symbol := by
  unfold orFree
  split
  · rename_i empty
    have different : Symbol.generic .zero ≠ symbol := by
      rintro rfl
      exact Bool.noConfusion notGeneric
    rw [count, count, entries_free, List.isEmpty_iff.1 empty, Tally.count_cons, if_neg different]
  · rfl

theorem generic_orFree
    (cost : Cost) :
    cost.orFree.generic = cost.generic := by
  unfold orFree
  split
  · rename_i empty
    rw [generic, generic, entries_free, List.isEmpty_iff.1 empty, Tally.genericTotal_single]
    rfl
  · rfl

theorem isEmpty_orFree
    (cost : Cost) :
    cost.orFree.isEmpty = false := by
  unfold orFree
  split
  · rw [isEmpty, entries_free]
    rfl
  · rename_i some
    exact Bool.eq_false_of_not_eq_true some

theorem count_orFree_remaining
    (payer payment : Cost)
    (needed : Amount)
    {symbol : Symbol}
    (notGeneric : symbol.isGeneric = false) :
    (ofTally (payer.remaining payment needed)).orFree.count symbol =
      payer.count symbol - payment.count symbol := by
  rw [count_orFree _ notGeneric, count_ofTally _ notGeneric,
    settledCounts_remaining payer payment needed notGeneric]

theorem generic_orFree_remaining
    (payer payment : Cost)
    (needed : Amount) :
    (ofTally (payer.remaining payment needed)).orFree.generic =
      payer.generic.afterPaying needed := by
  rw [generic_orFree, generic_ofTally, genericTotal_remaining]

/-- Where no mana is left, `{0}` is. -/
theorem orFree_eq_free
    {tally : Tally}
    (nothing : ∀ symbol : Symbol, symbol.isGeneric = false → tally.copies symbol = 0)
    (noGeneric : tally.present.genericTotal = .zero) :
    (ofTally tally).orFree = free := by
  have entries := entries_ofTally_of_copies_eq_zero nothing
  unfold orFree
  split
  · rfl
  · rename_i some
    rcases Tally.mergedGeneric_cases tally with single | ⟨none, -⟩
    · apply eq_of_entries_eq
      rw [entries, single, noGeneric, entries_free]
    · exact absurd (by rw [isEmpty, entries, none]; rfl) some

/-- What a payer keeps after its exact need is paid is the remainder. -/
theorem isRemainder_of_follows
    {payer payment : Cost}
    {policy : Policy}
    {needed : Amount}
    (payerExact : payer.generic.IsExact)
    (follows : needed.Follows (payer.required payment policy)) :
    IsRemainder payer payment policy (ofTally (payer.remaining payment needed)).orFree where
  count_eq _ := count_orFree_remaining payer payment needed
  generic_eq := by
    rw [generic_orFree_remaining, Amount.steps_afterPaying payerExact follows]
  free_of_nothing := by
    intro fewer finite covered
    apply orFree_eq_free
    · intro symbol notGeneric
      rw [copies_remaining payer payment needed notGeneric]
      exact Nat.sub_eq_zero_of_le (fewer symbol notGeneric)
    · apply Amount.steps_injective
      rw [genericTotal_remaining, Amount.steps_afterPaying payerExact follows, if_neg finite,
        tsub_eq_zero_of_le covered, Amount.steps_zero]

/-- A strict payment that goes through leaves what a lenient one leaves. -/
theorem reduce_lenient
    {payer payment remainder : Cost}
    {policy : Policy}
    (paid : payer.reduce payment policy = .ok remainder) :
    payer.reduce payment policy.lenient = .ok remainder := by
  obtain ⟨needed, walk, kept⟩ := reduce_eq_ok_iff.1 paid
  exact reduce_eq_ok_iff.2 ⟨needed, demandFrom_lenient walk, kept⟩

/-- What is left of a pure cost is pure. -/
theorem isPure_of_isRemainder
    {payer payment remainder : Cost}
    {policy : Policy}
    (pure : payer.isPure = true)
    (left : IsRemainder payer payment policy remainder) :
    remainder.isPure = true := by
  apply isPure_of_count_le pure
  intro symbol notGeneric
  rw [left.count_eq symbol notGeneric]
  exact Nat.sub_le _ _

end ManaCost.Cost
