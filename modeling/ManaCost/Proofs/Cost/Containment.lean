import ManaCost.Proofs.Bill.Partition
import ManaCost.Proofs.Cost.Relation
import ManaCost.Proofs.Cost.Search

namespace ManaCost

/-!
# Containment from both sides

Two costs that change places change the sides of their split, so that the relation turns to its
converse and the comparison changes its sign.  A cost that lies properly within another comes before
it in a search.  The main statement is `Cost.searchCompare_respects_containment`; it holds for
amounts of any size, because rounding leaves a positive difference positive.
-/

namespace Partition

theorem relation_swap
    (partition : Partition) :
    partition.swap.relation = partition.relation.converse := by
  rw [relation, relation, swap]
  cases partition.leftOnly.isEmpty <;> cases partition.rightOnly.isEmpty <;>
    cases partition.both.isEmpty <;> rfl

/-- Where both sides have something, their colors are compared, which changes sign too. -/
theorem comparison_swap
    (partition : Partition) :
    partition.swap.comparison = partition.comparison.swap := by
  have colors : partition.rightOnly.color.compareEmptyFirst partition.leftOnly.color =
      (partition.leftOnly.color.compareEmptyFirst partition.rightOnly.color).swap :=
    Std.OrientedCmp.eq_swap
  rw [comparison, comparison, swap]
  cases partition.leftOnly.isEmpty <;> cases partition.rightOnly.isEmpty
  case false.false => exact colors
  all_goals rfl

end Partition

namespace Cost

variable {left right : Cost}

/-- A cost lies within another and has less of something. -/
structure ProperlyWithin
    (part whole : Cost) :
    Prop
    extends part.Within whole where
  less : (∃ symbol : Symbol, symbol.isGeneric = false ∧ part.count symbol < whole.count symbol) ∨
    part.generic.steps < whole.generic.steps

theorem properlyWithin_iff :
    left.ProperlyWithin right ↔ left.Within right ∧ ¬right.Within left := by
  constructor
  · rintro ⟨within, less⟩
    refine ⟨within, fun back => ?_⟩
    rcases less with ⟨symbol, notGeneric, fewer⟩ | lower
    · exact fewer.not_ge (back.count_le symbol notGeneric)
    · exact lower.not_ge back.generic_le
  · rintro ⟨within, notBack⟩
    refine ⟨within, ?_⟩
    by_contra same
    obtain ⟨noSymbol, notLower⟩ := not_or.1 same
    refine notBack ⟨fun symbol notGeneric => ?_, not_lt.1 notLower⟩
    exact not_lt.1 fun fewer => noSymbol ⟨symbol, notGeneric, fewer⟩

/-- One cost is contained in another when it lies properly within it. -/
theorem relation_eq_containedIn_iff :
    (Partition.of left right).relation = .containedIn ↔ left.ProperlyWithin right := by
  rw [properlyWithin_iff, ← Partition.isEmpty_leftOnly_iff, ← Partition.isEmpty_rightOnly_iff,
    Partition.relation]
  cases (Partition.of left right).leftOnly.isEmpty <;>
    cases (Partition.of left right).rightOnly.isEmpty <;>
      cases (Partition.of left right).both.isEmpty <;> simp

theorem searchCompare_swap
    (left right : Cost) :
    right.searchCompare left = (left.searchCompare right).swap := by
  rw [searchCompare, Partition.of_swap, Partition.comparison_swap, searchCompare]

/--
A search compares two costs with opposite signs when they change places, and sees their relation from
the other side.  A cost that lies properly within another is contained in it and comes before it.
-/
theorem searchCompare_respects_containment
    (left right : Cost) :
    right.searchCompare left = (left.searchCompare right).swap ∧
      (Partition.of right left).relation = (Partition.of left right).relation.converse ∧
        (left.ProperlyWithin right →
          left.searchCompare right = .lt ∧ right.searchCompare left = .gt ∧
            (Partition.of left right).relation = .containedIn) := by
  refine ⟨searchCompare_swap left right, ?_, fun properly => ?_⟩
  · rw [Partition.of_swap, Partition.relation_swap]
  · obtain ⟨within, notBack⟩ := properlyWithin_iff.1 properly
    have before : left.searchCompare right = .lt :=
      searchCompare_eq_lt_iff.2 ⟨notBack, .inl within⟩
    refine ⟨before, ?_, relation_eq_containedIn_iff.2 properly⟩
    rw [searchCompare_swap left right, before]
    rfl

/-- The least positive amount of generic mana and a hybrid. -/
def oneStepBesideHybrid : Cost :=
  .ofSymbols [.generic (.finite 1 (by decide +kernel)), Bill.whiteBlue]

/-- Twice the least positive amount of generic mana and a hybrid. -/
def twoStepsBesideHybrid : Cost :=
  .ofSymbols [.generic (.finite 2 (by decide +kernel)), Bill.whiteBlue]

/-- The smallest step of generic mana is enough to contain a cost properly. -/
theorem searchCompare_steps_beside_hybrid :
    oneStepBesideHybrid.ProperlyWithin twoStepsBesideHybrid ∧
      oneStepBesideHybrid.searchCompare twoStepsBesideHybrid = .lt ∧
        twoStepsBesideHybrid.searchCompare oneStepBesideHybrid = .gt ∧
          (Partition.of oneStepBesideHybrid twoStepsBesideHybrid).relation = .containedIn := by
  have within : oneStepBesideHybrid.Within twoStepsBesideHybrid := by
    rw [← Partition.isEmpty_leftOnly_iff]
    decide +kernel
  have properly : oneStepBesideHybrid.ProperlyWithin twoStepsBesideHybrid :=
    ⟨within, .inr (by decide +kernel)⟩
  obtain ⟨-, -, contained⟩ :=
    searchCompare_respects_containment oneStepBesideHybrid twoStepsBesideHybrid
  exact ⟨properly, contained properly⟩

end Cost

end ManaCost
