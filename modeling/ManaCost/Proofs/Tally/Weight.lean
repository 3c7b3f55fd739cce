import Mathlib
import ManaCost.Proofs.Tally.Polish

namespace ManaCost

/-!
# Weighing tallies

A tally is weighed by giving every copy of a symbol a number of steps.  Weights add up without
rounding and do not depend on how a tally is divided into entries.  The main statements are
`follows_sum_scale` and `follows_genericTotal`: amounts that are added up entry by entry follow the
weight of the entries.
-/

namespace Symbol

/-- The steps of generic mana in a symbol. -/
def genericSteps
    (symbol : Symbol) :
    ℕ∞ :=
  if symbol.isGeneric then symbol.manaValue.steps else 0

/-- The amount of a generic symbol is its value. -/
theorem genericAmount?_eq
    (symbol : Symbol) :
    symbol.genericAmount? = if symbol.isGeneric then some symbol.manaValue else none := by
  rcases symbol with (_ | _ | _ | _) | _ <;> rfl

end Symbol

namespace Tally

/-- The steps of all entries together, where every copy of a symbol has a given number of steps. -/
def weight
    (worth : Symbol → ℕ∞)
    (tally : Tally) :
    ℕ∞ :=
  (tally.map fun entry => worth entry.1 * entry.2).sum

variable {worth : Symbol → ℕ∞} {left right tally : Tally}

@[simp] theorem weight_nil :
    weight worth [] = 0 :=
  rfl

@[simp] theorem weight_cons
    (entry : Symbol × Nat)
    (rest : Tally) :
    weight worth (entry :: rest) = worth entry.1 * entry.2 + weight worth rest :=
  rfl

theorem weight_append :
    weight worth (left ++ right) = left.weight worth + right.weight worth := by
  simp [weight]

theorem weight_eq_of_perm
    (same : left.Perm right) :
    left.weight worth = right.weight worth :=
  (same.map _).sum_eq

theorem weight_bump
    (tally : Tally)
    (symbol : Symbol)
    (more : Nat) :
    (tally.bump symbol more).weight worth = tally.weight worth + worth symbol * more := by
  induction tally with
  | nil =>
      simp [bump]
  | cons entry rest inductionHypothesis =>
      by_cases same : entry.1 = symbol
      · simp only [bump, same, ↓reduceIte, weight_cons, Nat.cast_add, mul_add]
        exact add_right_comm _ _ _
      · simp only [bump, same, ↓reduceIte, weight_cons, inductionHypothesis, add_assoc]

theorem weight_merge
    (left right : Tally) :
    (left.merge right).weight worth = left.weight worth + right.weight worth := by
  induction right generalizing left with
  | nil =>
      exact (add_zero _).symm
  | cons entry rest inductionHypothesis =>
      calc
        (left.merge (entry :: rest)).weight worth =
            (left.bump entry.1 entry.2).weight worth + weight worth rest :=
          inductionHypothesis _
        _ = left.weight worth + weight worth (entry :: rest) := by
          rw [weight_bump, weight_cons, add_assoc]

theorem weight_present
    (tally : Tally) :
    tally.present.weight worth = tally.weight worth := by
  induction tally with
  | nil =>
      rfl
  | cons entry rest inductionHypothesis =>
      unfold present at inductionHypothesis ⊢
      by_cases counted : 0 < entry.2
      · simp [counted, inductionHypothesis]
      · simp [Nat.eq_zero_of_not_pos counted, inductionHypothesis]

/-- Written out symbol by symbol, a tally weighs the same. -/
theorem sum_map_flatMap_replicate
    (tally : Tally) :
    ((tally.flatMap fun entry => List.replicate entry.2 entry.1).map worth).sum =
      tally.weight worth := by
  induction tally with
  | nil =>
      rfl
  | cons entry rest inductionHypothesis =>
      simp [inductionHypothesis, mul_comm]

theorem weight_filter_isGeneric
    (tally : Tally) :
    weight (fun symbol => symbol.manaValue.steps)
        (tally.filter fun entry => entry.1.isGeneric) =
      tally.weight Symbol.genericSteps := by
  induction tally with
  | nil =>
      rfl
  | cons entry rest inductionHypothesis =>
      cases kind : entry.1.isGeneric <;>
        simp [kind, inductionHypothesis, Symbol.genericSteps]

/-- Values that are added up in order follow the weight of all entries. -/
theorem follows_sum_scale
    (whole : ∀ entry ∈ tally, entry.1.manaValue.Follows entry.1.manaValue.steps) :
    (Amount.sum (tally.map fun entry => entry.1.manaValue.scale entry.2)).Follows
      (tally.weight fun symbol => symbol.manaValue.steps) := by
  -- The sum is built from the left, so that the induction starts from any amount.
  have onto (start : Amount) (total : ℕ∞) (follows : start.Follows total) :
      ((tally.map fun entry => entry.1.manaValue.scale entry.2).foldl Amount.add start).Follows
        (total + tally.weight fun symbol => symbol.manaValue.steps) := by
    induction tally generalizing start total with
    | nil =>
        simpa using follows
    | cons entry rest inductionHypothesis =>
        have next := follows.add (Amount.follows_scale (whole entry (.head rest)) entry.2)
        have tail := inductionHypothesis (fun other member => whole other (.tail entry member))
          _ _ next
        simpa [add_assoc] using tail
  simpa [Amount.sum] using onto .zero 0 Amount.follows_zero

theorem sum_scale_eq_infinite
    (unbounded : (tally.weight fun symbol => symbol.manaValue.steps) = ⊤) :
    Amount.sum (tally.map fun entry => entry.1.manaValue.scale entry.2) = .infinite := by
  apply Amount.sum_eq_infinite
  induction tally with
  | nil =>
      simp at unbounded
  | cons entry rest inductionHypothesis =>
      rw [weight_cons, ENat.add_eq_top] at unbounded
      rw [List.map_cons, List.mem_cons]
      rcases unbounded with here | later
      · exact .inl (Amount.scale_eq_infinite here).symm
      · exact .inr (inductionHypothesis later)

theorem genericTotal_eq_sum
    (tally : Tally) :
    tally.genericTotal =
      .sum ((tally.filter fun entry => entry.1.isGeneric).map fun entry =>
        entry.1.manaValue.scale entry.2) := by
  unfold genericTotal
  congr 1
  induction tally with
  | nil =>
      rfl
  | cons entry rest inductionHypothesis =>
      rw [List.filterMap_cons, inductionHypothesis, Symbol.genericAmount?_eq]
      cases kind : entry.1.isGeneric <;> simp [kind]

/-- A generic total follows the weight of the generic entries. -/
theorem follows_genericTotal
    (whole : ∀ entry ∈ tally, entry.1.isGeneric = true →
      entry.1.manaValue.Follows entry.1.manaValue.steps) :
    tally.genericTotal.Follows (tally.weight Symbol.genericSteps) := by
  rw [genericTotal_eq_sum, ← weight_filter_isGeneric]
  apply follows_sum_scale
  intro entry member
  obtain ⟨held, generic⟩ := List.mem_filter.1 member
  exact whole entry held generic

theorem genericTotal_eq_infinite
    (unbounded : tally.weight Symbol.genericSteps = ⊤) :
    tally.genericTotal = .infinite := by
  rw [← weight_filter_isGeneric] at unbounded
  rw [genericTotal_eq_sum, sum_scale_eq_infinite unbounded]

theorem fst_mem_of_mem_bump
    {symbol : Symbol}
    {more : Nat}
    {entry : Symbol × Nat}
    (member : entry ∈ tally.bump symbol more) :
    entry.1 ∈ tally.map Prod.fst ∨ entry.1 = symbol := by
  have inSymbols : entry.1 ∈ (tally.bump symbol more).map Prod.fst :=
    List.mem_map_of_mem member
  rw [map_fst_bump] at inSymbols
  split at inSymbols
  · exact .inl inSymbols
  · simpa using inSymbols

/-- Merging brings no symbols but those of either tally. -/
theorem fst_mem_of_mem_merge
    {entry : Symbol × Nat}
    (member : entry ∈ left.merge right) :
    entry.1 ∈ left.map Prod.fst ∨ entry.1 ∈ right.map Prod.fst := by
  induction right generalizing left with
  | nil =>
      exact .inl (List.mem_map_of_mem member)
  | cons first rest inductionHypothesis =>
      rcases inductionHypothesis member with bumped | inRest
      · obtain ⟨source, sourceMember, same⟩ := List.mem_map.1 bumped
        rcases fst_mem_of_mem_bump sourceMember with inLeft | isFirst
        · exact .inl (same ▸ inLeft)
        · exact .inr (by simp [← same, isFirst])
      · exact .inr (List.mem_cons_of_mem _ inRest)

end Tally

end ManaCost
