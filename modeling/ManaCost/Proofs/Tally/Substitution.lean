import ManaCost.Cost.Algebra
import ManaCost.Proofs.Tally.Merge

namespace ManaCost.Tally

/-!
# Replacing a variable in a tally

Every copy of a variable gives way to all symbols of a replacement.  Copies and weight of the result
are linear in those of the tally (`copies_substituted`, `weight_substituted`), and a pair of half
pips may become a pip before a variable is replaced or after (`settledCounts_substituted`).
-/

variable {left right tally replacement : Tally}

/-- Every entry a number of times. -/
def times
    (tally : Tally)
    (number : Nat) :
    Tally :=
  tally.map fun entry => (entry.1, entry.2 * number)

/-- A tally with every copy of a variable replaced by the symbols of another tally. -/
def substituted
    (tally : Tally)
    (name : Variable)
    (replacement : Tally) :
    Tally :=
  tally.without (.var name) ++ replacement.times (tally.copies (.var name))

theorem copies_times
    (tally : Tally)
    (number : Nat)
    (symbol : Symbol) :
    (tally.times number).copies symbol = tally.copies symbol * number := by
  induction tally with
  | nil => exact (Nat.zero_mul number).symm
  | cons entry rest inductionHypothesis =>
      have step : times (entry :: rest) number = (entry.1, entry.2 * number) :: times rest number :=
        rfl
      rw [step, copies_cons, copies_cons, inductionHypothesis, Nat.add_mul, ite_mul, Nat.zero_mul]

theorem copies_without
    (tally : Tally)
    (forgotten symbol : Symbol) :
    (tally.without forgotten).copies symbol =
      if forgotten = symbol then 0 else tally.copies symbol := by
  rw [without, copies_filter fun other => decide (other ≠ forgotten)]
  by_cases same : forgotten = symbol
  · simp [same]
  · simp [same, Ne.symm same]

/-- A replaced variable is left as often as its replacement holds it. -/
theorem copies_substituted
    (tally : Tally)
    (name : Variable)
    (replacement : Tally)
    (symbol : Symbol) :
    (tally.substituted name replacement).copies symbol =
      (if .var name = symbol then 0 else tally.copies symbol) +
        replacement.copies symbol * tally.copies (.var name) := by
  rw [substituted, copies_append, copies_without, copies_times]

/-- Where a replacement has symbols, replacing leaves nothing of an empty tally only. -/
theorem copies_substituted_eq_zero_iff
    (name : Variable)
    (some : ∃ symbol, replacement.copies symbol ≠ 0) :
    (∀ symbol, (tally.substituted name replacement).copies symbol = 0) ↔
      ∀ symbol, tally.copies symbol = 0 := by
  simp only [copies_substituted, Nat.add_eq_zero_iff, Nat.mul_eq_zero]
  constructor
  · intro nothing symbol
    have noVariable : tally.copies (.var name) = 0 := by
      obtain ⟨held, holds⟩ := some
      exact (nothing held).2.resolve_left holds
    by_cases same : .var name = symbol
    · exact same ▸ noVariable
    · simpa only [same, ↓reduceIte] using (nothing symbol).1
  · intro nothing symbol
    exact ⟨by rw [nothing, ite_self], .inr (nothing _)⟩

theorem weight_times
    {worth : Symbol → ℕ∞}
    (tally : Tally)
    (number : Nat) :
    (tally.times number).weight worth = tally.weight worth * number := by
  induction tally with
  | nil => exact (zero_mul _).symm
  | cons entry rest inductionHypothesis =>
      have step : times (entry :: rest) number = (entry.1, entry.2 * number) :: times rest number :=
        rfl
      rw [step, weight_cons, weight_cons, inductionHypothesis, add_mul, Nat.cast_mul, mul_assoc]

/-- Symbols that weigh nothing may be left out. -/
theorem weight_filter
    {worth : Symbol → ℕ∞}
    (keep : Symbol → Bool)
    (nothing : ∀ symbol, keep symbol = false → worth symbol = 0)
    (tally : Tally) :
    weight worth (tally.filter fun entry => keep entry.1) = tally.weight worth := by
  induction tally with
  | nil => rfl
  | cons entry rest inductionHypothesis =>
      cases kept : keep entry.1 with
      | true => simp [kept, inductionHypothesis]
      | false => simp [kept, nothing entry.1 kept, inductionHypothesis]

theorem weight_substituted
    (tally : Tally)
    (name : Variable)
    (replacement : Tally) :
    (tally.substituted name replacement).weight Symbol.genericSteps =
      tally.weight Symbol.genericSteps +
        replacement.weight Symbol.genericSteps * tally.copies (.var name) := by
  have others : (tally.without (.var name)).weight Symbol.genericSteps =
      tally.weight Symbol.genericSteps := by
    refine weight_filter (fun symbol => decide (symbol ≠ .var name)) ?_ tally
    intro symbol forgotten
    obtain rfl : symbol = .var name := by simpa using forgotten
    rfl
  rw [substituted, weight_append, others, weight_times]

/-- Replacing in two tallies replaces in what they hold together. -/
theorem copies_substituted_append
    (left right : Tally)
    (name : Variable)
    (replacement : Tally)
    (symbol : Symbol) :
    ((left ++ right).substituted name replacement).copies symbol =
      (left.substituted name replacement ++ right.substituted name replacement).copies symbol := by
  rw [copies_append, copies_substituted, copies_substituted, copies_substituted, copies_append,
    copies_append, Nat.mul_add]
  split
  · omega
  · omega

theorem weight_substituted_append
    (left right : Tally)
    (name : Variable)
    (replacement : Tally) :
    ((left ++ right).substituted name replacement).weight Symbol.genericSteps =
      (left.substituted name replacement ++ right.substituted name replacement).weight
        Symbol.genericSteps := by
  rw [weight_append, weight_substituted, weight_substituted, weight_substituted, weight_append,
    copies_append, Nat.cast_add, mul_add, add_add_add_comm]

/-- Variables of which neither is in the replacement of the other may be replaced in either order. -/
theorem copies_substituted_comm
    {name other : Variable}
    (different : name ≠ other)
    {first second : Tally}
    (firstFree : first.copies (.var other) = 0)
    (secondFree : second.copies (.var name) = 0)
    (tally : Tally)
    (symbol : Symbol) :
    ((tally.substituted name first).substituted other second).copies symbol =
      ((tally.substituted other second).substituted name first).copies symbol := by
  simp only [copies_substituted, firstFree, secondFree, Symbol.single.injEq,
    PureSymbol.var.injEq, different, different.symm, ↓reduceIte, Nat.zero_mul, Nat.add_zero]
  by_cases isName : Symbol.var name = symbol
  · subst isName
    simp [different.symm, secondFree]
  · by_cases isOther : Symbol.var other = symbol
    · subst isOther
      simp [different, firstFree]
    · simp only [isName, isOther, ↓reduceIte]
      exact Nat.add_right_comm _ _ _

theorem weight_substituted_comm
    {name other : Variable}
    (different : name ≠ other)
    {first second : Tally}
    (firstFree : first.copies (.var other) = 0)
    (secondFree : second.copies (.var name) = 0)
    (tally : Tally) :
    ((tally.substituted name first).substituted other second).weight Symbol.genericSteps =
      ((tally.substituted other second).substituted name first).weight Symbol.genericSteps := by
  simp only [weight_substituted, copies_substituted, firstFree, secondFree, Symbol.single.injEq,
    PureSymbol.var.injEq, different, different.symm, ↓reduceIte, Nat.zero_mul, Nat.add_zero]
  exact add_right_comm _ _ _

/-- Two numbers of half pips, one of them multiplied, make the same pairs when each is paired
before. -/
theorem pairs_add_mul
    (halves more number : Nat) :
    (halves + more * number) / 2 =
        halves / 2 + more / 2 * number + (halves % 2 + more % 2 * number) / 2 ∧
      (halves + more * number) % 2 = (halves % 2 + more % 2 * number) % 2 := by
  have parts : halves + more * number =
      halves % 2 + more % 2 * number + 2 * (halves / 2 + more / 2 * number) := by
    conv_lhs => rw [← Nat.mod_add_div halves 2, ← Nat.mod_add_div more 2]
    ring
  rw [parts, Nat.add_mul_div_left _ _ Nat.two_pos, Nat.add_mul_mod_self_left, Nat.add_comm]
  exact ⟨rfl, rfl⟩

/-- Settling may be put off until a variable has been replaced. -/
theorem settledCounts_substituted
    (tally : Tally)
    (name : Variable)
    (replacement : Tally)
    (symbol : Symbol) :
    settledCounts
        (fun other =>
          (if .var name = other then 0 else settledCounts tally.copies other) +
            settledCounts replacement.copies other * tally.copies (.var name))
        symbol =
      settledCounts (tally.substituted name replacement).copies symbol := by
  have linear : (tally.substituted name replacement).copies = fun symbol =>
      (if .var name = symbol then 0 else tally.copies symbol) +
        replacement.copies symbol * tally.copies (.var name) :=
    funext (copies_substituted tally name replacement)
  rw [linear]
  rcases symbol with (atom | color | amount | other) | options
  · cases atom with
    | pip color =>
        obtain ⟨pairs, -⟩ := pairs_add_mul (tally.copies (.half color))
          (replacement.copies (.half color)) (tally.copies (.var name))
        simp only [settledCounts, reduceCtorEq, Symbol.single.injEq, ↓reduceIte]
        rw [pairs, Nat.add_mul]
        omega
    | snow | phyrexian | tap | untap => rfl
  · obtain ⟨-, rest⟩ := pairs_add_mul (tally.copies (.half color))
      (replacement.copies (.half color)) (tally.copies (.var name))
    simp only [settledCounts, reduceCtorEq, Symbol.single.injEq, ↓reduceIte]
    rw [rest]
  all_goals rfl

end ManaCost.Tally
