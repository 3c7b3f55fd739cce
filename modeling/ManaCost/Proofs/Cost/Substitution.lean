import ManaCost.Proofs.Cost.Total
import ManaCost.Proofs.Tally.Substitution

namespace ManaCost.Cost

/-!
# Replacing a variable in a cost

A cost that has a variable replaced holds what its tally holds when the variable is replaced there
(`Holds.substituted`), so that it does not show whether costs are polished before a variable is
replaced or after.  The main statements are `substituted_add` and `substituted_comm`.
-/

variable {cost left right replacement first second : Cost}
variable {name other : Variable}

/-- A cost with every copy of a variable replaced by the symbols of another cost. -/
def substituted
    (cost : Cost)
    (name : Variable)
    (replacement : Cost) :
    Cost :=
  ofTally ((cost.entries.without (.var name)).merge
    (replacement.entries.times (cost.count (.var name))))

theorem ofTally_substituteTally
    (cost : Cost)
    (name : Variable)
    (replacement : Cost) :
    ofTally (cost.substituteTally name replacement) = cost.substituted name replacement :=
  rfl

/-- The tally that replacing polishes holds what replacing in the entries does. -/
theorem copies_merge_times
    (cost : Cost)
    (name : Variable)
    (replacement : Cost)
    (symbol : Symbol) :
    ((cost.entries.without (.var name)).merge
        (replacement.entries.times (cost.count (.var name)))).copies symbol =
      (cost.entries.substituted name replacement.entries).copies symbol := by
  rw [Tally.copies_merge, Tally.substituted, Tally.copies_append, copies_entries]

/-- What is replaced in the entries of a cost weighs what the generic mana of both costs does. -/
theorem weight_substituted_entries
    (cost : Cost)
    (name : Variable)
    (replacement : Cost) :
    (cost.entries.substituted name replacement.entries).weight Symbol.genericSteps =
      cost.generic.steps + replacement.generic.steps * cost.count (.var name) := by
  rw [Tally.weight_substituted, weight_genericSteps_entries, weight_genericSteps_entries,
    copies_entries]

/-- Replacing brings no generic symbols but those of either cost. -/
theorem eq_generic_of_mem_merge_times
    {entry : Symbol × Nat}
    (member : entry ∈ (cost.entries.without (.var name)).merge
      (replacement.entries.times (cost.count (.var name))))
    (generic : entry.1.isGeneric = true) :
    entry.1.manaValue = cost.generic ∨ entry.1.manaValue = replacement.generic := by
  rcases Tally.fst_mem_of_mem_merge member with inCost | inReplacement
  · obtain ⟨source, sourceMember, same⟩ := List.mem_map.1 inCost
    rw [← same] at generic ⊢
    rw [eq_of_mem_of_isGeneric (List.mem_of_mem_filter sourceMember) generic]
    exact .inl rfl
  · obtain ⟨source, sourceMember, same⟩ := List.mem_map.1 inReplacement
    obtain ⟨origin, originMember, rfl⟩ := List.mem_map.1 sourceMember
    rw [← same] at generic ⊢
    rw [eq_of_mem_of_isGeneric originMember generic]
    exact .inr rfl

/-- A cost without a variable stays as it is, whatever takes the place of the variable. -/
theorem substituted_of_count_eq_zero
    (none : cost.count (.var name) = 0)
    (replacement : Cost) :
    cost.substituted name replacement = cost := by
  have distinct : ((cost.entries.without (.var name)).merge
      (replacement.entries.times (cost.count (.var name)))).Distinct :=
    Tally.Distinct.merge (cost.distinct_entries.filter _) _
  refine ofTally_eq_of_count_eq distinct fun symbol => ?_
  rw [Tally.count_eq_copies distinct, copies_merge_times, Tally.copies_substituted,
    copies_entries, copies_entries, copies_entries, none, Nat.mul_zero, Nat.add_zero]
  split
  · rename_i same
    rw [← same, none]
  · rfl

/-- How often a cost holds a variable after another one, or the same, has been replaced. -/
theorem count_var_substituted
    (cost : Cost)
    (name : Variable)
    (replacement : Cost)
    (other : Variable) :
    (cost.substituted name replacement).count (.var other) =
      (if Symbol.var name = .var other then 0 else cost.count (.var other)) +
        replacement.count (.var other) * cost.count (.var name) := by
  have counted : (cost.substituted name replacement).count (.var other) =
      (cost.entries.substituted name replacement.entries).copies (.var other) := by
    rw [← copies_merge_times]
    exact count_ofTally _ rfl
  rw [counted, Tally.copies_substituted, copies_entries, copies_entries, copies_entries]

namespace Holds

variable {tally replacementTally : Tally}

theorem exists_copies_ne_zero
    (held : replacement.Holds replacementTally)
    (some : replacement.isEmpty = false) :
    ∃ symbol, replacementTally.copies symbol ≠ 0 := by
  rw [← not_forall, ← held.isEmpty_iff, some]
  exact Bool.false_ne_true

theorem count_var
    (held : cost.Holds tally)
    (name : Variable) :
    cost.count (.var name) = tally.copies (.var name) :=
  held.count_eq (.var name) rfl

/-- A replaced variable is replaced in what the cost holds. -/
theorem substituted
    (held : cost.Holds tally)
    (replacementHeld : replacement.Holds replacementTally)
    (some : replacement.isEmpty = false)
    (name : Variable) :
    (cost.substituted name replacement).Holds (tally.substituted name replacementTally) where
  isEmpty_iff := by
    have someEntries : ∃ symbol, replacement.entries.copies symbol ≠ 0 := by
      rw [← not_forall]
      simp only [copies_entries]
      rw [← isEmpty_iff_count, some]
      exact Bool.false_ne_true
    rw [Cost.substituted, isEmpty_ofTally_iff]
    simp only [copies_merge_times]
    rw [Tally.copies_substituted_eq_zero_iff name someEntries,
      Tally.copies_substituted_eq_zero_iff name (replacementHeld.exists_copies_ne_zero some),
      ← held.isEmpty_iff, isEmpty_iff_count]
    simp only [copies_entries]
  count_eq symbol notGeneric := by
    rw [Cost.substituted, count_ofTally _ notGeneric, ← Tally.settledCounts_substituted]
    refine Tally.settledCounts_congr (fun other otherNotGeneric => ?_) notGeneric
    rw [copies_merge_times, Tally.copies_substituted, copies_entries, copies_entries,
      copies_entries, held.count_eq other otherNotGeneric, held.count_var,
      replacementHeld.count_eq other otherNotGeneric]
  generic_comesTo := by
    have weight : ((cost.entries.without (.var name)).merge
          (replacement.entries.times (cost.count (.var name)))).weight Symbol.genericSteps =
        cost.generic.steps + replacement.generic.steps * cost.count (.var name) := by
      rw [← weight_substituted_entries, Tally.weight_merge, Tally.substituted,
        Tally.weight_append, copies_entries]
    have computed : (cost.substituted name replacement).generic.ComesTo
        (cost.generic.steps + replacement.generic.steps * cost.count (.var name)) := by
      rw [Cost.substituted, generic_ofTally, ← weight]
      apply Tally.comesTo_genericTotal_of_follows
      intro entry member generic
      rcases eq_generic_of_mem_merge_times member generic with same | same
      · rw [same]
        exact held.generic_comesTo.follows.itself
      · rw [same]
        exact replacementHeld.generic_comesTo.follows.itself
    rw [Tally.weight_substituted, ← held.count_var]
    exact computed.trans (held.generic_comesTo.standsFor.add
      (replacementHeld.generic_comesTo.standsFor.mul _))

end Holds

/-- A variable may be replaced in two costs or in their sum. -/
theorem substituted_add
    (addUp : Amount.AddUp (left.generic :: right.generic ::
      List.replicate (left.count (.var name) + right.count (.var name)) replacement.generic))
    (some : replacement.isEmpty = false) :
    (left.add right).substituted name replacement =
      (left.substituted name replacement).add (right.substituted name replacement) := by
  by_cases none : left.count (.var name) + right.count (.var name) = 0
  · -- No amount is taken from the replacement here, so that nothing is known of it.
    have sumNone : (left.add right).count (.var name) = 0 := by
      rw [count_add left right rfl]
      exact none
    obtain ⟨leftNone, rightNone⟩ := Nat.add_eq_zero_iff.1 none
    rw [substituted_of_count_eq_zero sumNone, substituted_of_count_eq_zero leftNone,
      substituted_of_count_eq_zero rightNone]
  · have member : replacement.generic ∈ List.replicate
        (left.count (.var name) + right.count (.var name)) replacement.generic :=
      List.mem_replicate.2 ⟨none, rfl⟩
    have leftHeld := holds_entries (addUp.exact left.generic (.head _))
    have rightHeld := holds_entries (addUp.exact right.generic (.tail _ (.head _)))
    have replacementHeld := holds_entries (addUp.exact _ (.tail _ (.tail _ member)))
    have before := (leftHeld.add rightHeld).substituted replacementHeld some name
    have after := (leftHeld.substituted replacementHeld some name).add
      (rightHeld.substituted replacementHeld some name)
    have weight := addUp.total
    simp only [List.map_cons, List.map_replicate, List.sum_cons, List.sum_replicate,
      nsmul_eq_mul] at weight
    refine (before.congr (Tally.copies_substituted_append _ _ _ _)
      (Tally.weight_substituted_append _ _ _ _)).unique after ?_
    rw [Tally.weight_append, weight_substituted_entries, weight_substituted_entries]
    convert weight using 1
    push_cast
    ring

/-- A variable that is not there may be replaced before another one is or after. -/
theorem substituted_comm_of_count_eq_zero
    (none : cost.count (.var name) = 0)
    (secondFree : second.count (.var name) = 0)
    (first : Cost) :
    (cost.substituted name first).substituted other second =
      (cost.substituted other second).substituted name first := by
  have stillNone : (cost.substituted other second).count (.var name) = 0 := by
    rw [count_var_substituted, none, secondFree, ite_self, Nat.zero_mul]
  rw [substituted_of_count_eq_zero none, substituted_of_count_eq_zero stillNone]

/-- Variables of which neither is in the replacement of the other may be replaced in either order. -/
theorem substituted_comm
    (different : name ≠ other)
    (firstFree : first.count (.var other) = 0)
    (secondFree : second.count (.var name) = 0)
    (firstSome : first.isEmpty = false)
    (secondSome : second.isEmpty = false)
    (addUp : Amount.AddUp (cost.generic ::
      (List.replicate (cost.count (.var name)) first.generic ++
        List.replicate (cost.count (.var other)) second.generic))) :
    (cost.substituted name first).substituted other second =
      (cost.substituted other second).substituted name first := by
  by_cases noName : cost.count (.var name) = 0
  · exact substituted_comm_of_count_eq_zero noName secondFree first
  by_cases noOther : cost.count (.var other) = 0
  · exact (substituted_comm_of_count_eq_zero noOther firstFree second).symm
  have firstMember : first.generic ∈ List.replicate (cost.count (.var name)) first.generic :=
    List.mem_replicate.2 ⟨noName, rfl⟩
  have secondMember : second.generic ∈ List.replicate (cost.count (.var other)) second.generic :=
    List.mem_replicate.2 ⟨noOther, rfl⟩
  have held := holds_entries (addUp.exact cost.generic (.head _))
  have firstHeld := holds_entries (addUp.exact _ (.tail _ (List.mem_append_left _ firstMember)))
  have secondHeld := holds_entries (addUp.exact _ (.tail _ (List.mem_append_right _ secondMember)))
  have before :=
    (held.substituted firstHeld firstSome name).substituted secondHeld secondSome other
  have after :=
    (held.substituted secondHeld secondSome other).substituted firstHeld firstSome name
  rw [← copies_entries] at firstFree secondFree
  refine (before.congr (Tally.copies_substituted_comm different firstFree secondFree _)
    (Tally.weight_substituted_comm different firstFree secondFree _)).unique after ?_
  have weight := addUp.total
  simp only [List.map_cons, List.map_append, List.map_replicate, List.sum_cons, List.sum_append,
    List.sum_replicate, nsmul_eq_mul] at weight
  rw [Tally.weight_substituted, weight_substituted_entries, weight_genericSteps_entries,
    Tally.copies_substituted, secondFree, copies_entries]
  simp only [Symbol.single.injEq, PureSymbol.var.injEq, different.symm, ↓reduceIte]
  convert weight using 1
  push_cast
  ring

end ManaCost.Cost
