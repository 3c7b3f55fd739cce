import ManaCost.Proofs.Amount.Total
import ManaCost.Proofs.Tally.Weight

namespace ManaCost.Tally

/-!
# What merging keeps

Merged tallies hold the copies, the weight and the generic symbols of both, in one entry for each
symbol.  The generic total of a tally of exact amounts comes to its weight, however the amounts are
divided into entries.
-/

variable {left right tally : Tally}

/-- Counting a symbol of the kept kind again may be done before or after the others are left out. -/
theorem filter_bump
    (keep : Symbol → Bool)
    (tally : Tally)
    (symbol : Symbol)
    (more : Nat) :
    ((tally.bump symbol more).filter fun entry => keep entry.1) =
      if keep symbol then
        Tally.bump (tally.filter fun entry => keep entry.1) symbol more
      else
        tally.filter fun entry => keep entry.1 := by
  induction tally with
  | nil =>
      cases kept : keep symbol <;> simp [bump, kept]
  | cons entry rest inductionHypothesis =>
      by_cases same : entry.1 = symbol
      · subst same
        cases kept : keep entry.1 <;> simp [bump, kept]
      · cases kept : keep symbol <;> cases first : keep entry.1 <;>
          simp_all [bump]

/-- Symbols may be left out before or after merging. -/
theorem filter_merge
    (keep : Symbol → Bool)
    (left right : Tally) :
    ((left.merge right).filter fun entry => keep entry.1) =
      Tally.merge (left.filter fun entry => keep entry.1)
        (right.filter fun entry => keep entry.1) := by
  induction right generalizing left with
  | nil =>
      rfl
  | cons entry rest inductionHypothesis =>
      have step : left.merge (entry :: rest) = (left.bump entry.1 entry.2).merge rest := rfl
      rw [step, inductionHypothesis, filter_bump]
      cases kept : keep entry.1 <;> simp [kept, merge]

theorem Positive.bump
    (positive : tally.Positive)
    (symbol : Symbol)
    {more : Nat}
    (some : 0 < more) :
    (tally.bump symbol more).Positive := by
  induction tally with
  | nil =>
      intro entry member
      obtain rfl := List.mem_singleton.1 member
      exact some
  | cons first rest inductionHypothesis =>
      obtain ⟨firstPositive, restPositive⟩ := List.forall_mem_cons.1 positive
      rw [Tally.bump]
      split
      · exact List.forall_mem_cons.2 ⟨Nat.add_pos_left firstPositive more, restPositive⟩
      · exact List.forall_mem_cons.2 ⟨firstPositive, inductionHypothesis restPositive⟩

theorem Positive.merge
    (leftPositive : left.Positive)
    (rightPositive : right.Positive) :
    (left.merge right).Positive := by
  induction right generalizing left with
  | nil =>
      exact leftPositive
  | cons entry rest inductionHypothesis =>
      obtain ⟨some, restPositive⟩ := List.forall_mem_cons.1 rightPositive
      exact inductionHypothesis (leftPositive.bump entry.1 some) restPositive

theorem copies_bump
    (tally : Tally)
    (added symbol : Symbol)
    (more : Nat) :
    (tally.bump added more).copies symbol =
      tally.copies symbol + if added = symbol then more else 0 := by
  induction tally with
  | nil =>
      simp [bump, copies_cons]
  | cons entry rest inductionHypothesis =>
      by_cases same : entry.1 = added
      · subst same
        by_cases found : entry.1 = symbol <;> simp [bump, copies_cons, found]
        omega
      · simp only [bump, same, ↓reduceIte, copies_cons, inductionHypothesis]
        omega

/-- Merged tallies hold the copies of both. -/
theorem copies_merge
    (left right : Tally)
    (symbol : Symbol) :
    (left.merge right).copies symbol = left.copies symbol + right.copies symbol := by
  induction right generalizing left with
  | nil =>
      rfl
  | cons entry rest inductionHypothesis =>
      have step : left.merge (entry :: rest) = (left.bump entry.1 entry.2).merge rest := rfl
      rw [step, inductionHypothesis, copies_bump, copies_cons, Nat.add_assoc]

/-- Counts that are settled in part settle to the same. -/
theorem settledCounts_settledCounts_add
    (left right : Symbol → Nat)
    (symbol : Symbol) :
    settledCounts
        (fun other => settledCounts left other + settledCounts right other) symbol =
      settledCounts (fun other => left other + right other) symbol := by
  rcases symbol with (atom | color | amount | name) | options
  · cases atom with
    | pip color =>
        simp only [settledCounts]
        omega
    | snow | phyrexian | tap | untap => rfl
  · simp only [settledCounts]
    omega
  all_goals rfl

/-- Settled counts are nothing only where there was nothing to settle. -/
theorem eq_zero_of_settledCounts_eq_zero
    {counts : Symbol → Nat}
    (nothing : ∀ symbol : Symbol, symbol.isGeneric = false → settledCounts counts symbol = 0)
    {symbol : Symbol}
    (notGeneric : symbol.isGeneric = false) :
    counts symbol = 0 := by
  have none := nothing symbol notGeneric
  rcases symbol with (atom | color | amount | name) | options
  · cases atom with
    | pip color => exact (Nat.add_eq_zero_iff.1 none).1
    | snow | phyrexian | tap | untap => exact none
  · have noPairs : counts (.half color) / 2 = 0 :=
      (Nat.add_eq_zero_iff.1 (nothing (.pip color) rfl)).2
    have noRest : counts (.half color) % 2 = 0 := none
    change counts (.half color) = 0
    omega
  all_goals exact none

/-- Every generic symbol of a tally has an exact amount. -/
def AmountsExact
    (tally : Tally) :
    Prop :=
  ∀ entry ∈ tally, entry.1.isGeneric = true → entry.1.manaValue.IsExact

/-- A total of amounts that follow their own steps comes to their weight. -/
theorem comesTo_genericTotal_of_follows
    (follows : ∀ entry ∈ tally, entry.1.isGeneric = true →
      entry.1.manaValue.Follows entry.1.manaValue.steps) :
    tally.present.genericTotal.ComesTo (tally.weight Symbol.genericSteps) := by
  rw [← weight_present]
  constructor
  · apply follows_genericTotal
    intro entry member
    exact follows entry (List.mem_of_mem_filter member)
  · exact genericTotal_eq_infinite

/-- A total of exact amounts comes to their weight. -/
theorem comesTo_genericTotal
    (exact : tally.AmountsExact) :
    tally.present.genericTotal.ComesTo (tally.weight Symbol.genericSteps) :=
  comesTo_genericTotal_of_follows fun entry member generic =>
    Amount.follows_of_isExact (exact entry member generic)

end ManaCost.Tally
