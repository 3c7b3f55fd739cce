import ManaCost.Proofs.Bill.RoundTrip

namespace ManaCost

/-!
# Costs told by their text

A row of tokens between braces can be taken apart in one way only, because no token holds a brace,
and tokens tell their symbols.  The main statement is `Bill.sameSymbols_iff_text_eq`: two bills have
the same symbols exactly when they have the same text, whether or not the text can be read back.
-/

/-- A row of symbols is told by its written form. -/
theorem eq_of_flatMap_braced_eq
    {left right : List Symbol}
    (same : (left.flatMap fun symbol => braced symbol.token) =
      right.flatMap fun symbol => braced symbol.token) :
    left = right := by
  induction left generalizing right with
  | nil =>
      cases right with
      | nil => rfl
      | cons symbol rest => simp [braced] at same
  | cons symbol rest inductionHypothesis =>
      cases right with
      | nil => simp [braced] at same
      | cons other others =>
          rw [List.flatMap_cons, List.flatMap_cons] at same
          obtain ⟨tokens, rests⟩ :=
            eq_and_eq_of_braced_append_eq symbol.isUnbraced_token other.isUnbraced_token same
          rw [Symbol.token_injective tokens, inductionHypothesis rests]

/-- Symbols are not written as `{}`. -/
theorem flatMap_braced_ne
    (symbols : List Symbol) :
    (symbols.flatMap fun symbol => braced symbol.token) ≠ braced [] := by
  intro same
  cases symbols with
  | nil => simp [braced] at same
  | cons symbol rest =>
      rw [List.flatMap_cons, ← List.append_nil (braced [])] at same
      exact symbol.token_ne_nil
        (eq_and_eq_of_braced_append_eq symbol.isUnbraced_token (by simp [IsUnbraced]) same).1

namespace Cost

/-- A cost is told by its written form. -/
theorem written_injective
    {left right : Cost}
    (same : left.written = right.written) :
    left = right := by
  unfold written at same
  split at same
  · rename_i leftEmpty
    split at same
    · rename_i rightEmpty
      rw [isEmpty_iff.1 leftEmpty, isEmpty_iff.1 rightEmpty]
    · exact absurd same.symm (flatMap_braced_ne right.symbols)
  · split at same
    · exact absurd same (flatMap_braced_ne left.symbols)
    · rw [← ofSymbols_symbols left, ← ofSymbols_symbols right, eq_of_flatMap_braced_eq same]

theorem text_injective
    {left right : Cost}
    (same : left.text = right.text) :
    left = right :=
  written_injective (String.ofList_injective same)

/-- Costs that count every symbol equally often are equal, in the order of their symbols too. -/
theorem sameSymbols_iff_eq
    {left right : Cost} :
    left.sameSymbols right = true ↔ left = right := by
  constructor
  · intro same
    rw [sameSymbols, Tally.sameCounts, Bool.and_eq_true, List.all_eq_true, List.all_eq_true]
      at same
    have inOther {one other : Cost}
        (counts : ∀ entry ∈ one.entries, (other.entries.count entry.1 == entry.2) = true)
        (entry : Symbol × Nat) (member : entry ∈ one.entries) : entry ∈ other.entries :=
      mem_entries_iff.2 ⟨(mem_entries_iff.1 member).1, eq_of_beq (counts entry member)⟩
    have nodup (cost : Cost) : cost.entries.Nodup := cost.distinct_entries.of_map
    apply eq_of_perm_entries
    rw [List.perm_ext_iff_of_nodup (nodup left) (nodup right)]
    exact fun entry => ⟨inOther same.1 entry, inOther same.2 entry⟩
  · rintro rfl
    exact left.sameSymbols_self

end Cost

/-- Two bills have the same symbols exactly when they have the same text. -/
theorem Bill.sameSymbols_iff_text_eq
    (left right : Bill) :
    left.cost.sameSymbols right.cost = true ↔ left.cost.text = right.cost.text := by
  rw [Cost.sameSymbols_iff_eq]
  exact ⟨congrArg Cost.text, Cost.text_injective⟩

end ManaCost
