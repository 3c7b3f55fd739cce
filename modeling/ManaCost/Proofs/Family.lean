import Mathlib
import ManaCost.Family
import ManaCost.Proofs.Bill.Rendering
import ManaCost.Proofs.ColorSet.Size

namespace ManaCost

/-!
# Families told by their costs

Different costs can agree in color, value and devotion, but not in text, so that a set of costs has
one order only.  The main statement is `Family.exists_sameOptions_iff`: families are the same exactly
when the same costs were given, and exactly when their options are the same one by one.
-/

namespace Cost

/-- Costs are shown by color, then by value, then by purity, then by devotion. -/
theorem compareComplete_eq :
    compareComplete =
      compareLex (compareThrough ColorSet.compareEmptyLast color)
        (compareLex (compareOn manaValue)
          (compareLex (compareOn fun cost => !cost.isPure) (compareOn devotionKey))) :=
  rfl

instance : Std.TransCmp compareComplete := by
  rw [compareComplete_eq]
  infer_instance

end Cost

namespace PureCost

variable {option : PureCost} {options left right : List PureCost}

/-- A cost that counts every symbol as often as the option is listed. -/
def Listed
    (option : PureCost)
    (options : List PureCost) :
    Prop :=
  ∃ listed ∈ options, option.cost.sameSymbols listed.cost = true

theorem sameSymbols_iff_eq
    {left right : PureCost} :
    left.cost.sameSymbols right.cost = true ↔ left = right := by
  rw [Cost.sameSymbols_iff_eq]
  cases left
  cases right
  simp

theorem listed_iff_mem :
    Listed option options ↔ option ∈ options := by
  simp only [Listed, sameSymbols_iff_eq, exists_eq_right']

/-- Options are compared as costs are shown, then by their text. -/
theorem compareOptions_eq :
    compareOptions =
      compareLex (compareThrough Cost.compareComplete cost)
        (compareOn fun option => option.cost.written) :=
  rfl

instance : Std.TransCmp compareOptions := by
  rw [compareOptions_eq]
  infer_instance

/-- Options that compare as equal are equal, because their texts are. -/
theorem eq_of_compareOptions_eq
    {left right : PureCost}
    (same : left.compareOptions right = .eq) :
    left = right := by
  rw [compareOptions, Ordering.then_eq_eq] at same
  have sameCost := Cost.written_injective (Std.LawfulEqOrd.eq_of_compare same.2)
  exact sameSymbols_iff_eq.1 (Cost.sameSymbols_iff_eq.2 sameCost)

example :
    (Cost.ofSymbols [.var .x, .pip .white]).compareComplete
      (Cost.ofSymbols [.var .y, .pip .white]) = .eq := by
  decide +kernel

/-- No cost is lost with its repeats. -/
theorem mem_distinct :
    option ∈ distinct options ↔ option ∈ options := by
  induction options with
  | nil => exact Iff.rfl
  | cons first rest inductionHypothesis =>
      rw [distinct, List.mem_cons, List.mem_cons, List.mem_filter, inductionHypothesis,
        Bool.not_eq_true', ← Bool.not_eq_true, sameSymbols_iff_eq]
      constructor
      · exact Or.imp_right And.left
      · rintro (isFirst | inRest)
        · exact .inl isFirst
        · exact or_iff_not_imp_left.2 fun other => ⟨inRest, Ne.symm other⟩

theorem nodup_distinct
    (options : List PureCost) :
    (distinct options).Nodup := by
  induction options with
  | nil => exact List.nodup_nil
  | cons first rest inductionHypothesis =>
      refine List.nodup_cons.2 ⟨fun repeated => ?_, inductionHypothesis.filter _⟩
      have other := (List.mem_filter.1 repeated).2
      rw [sameSymbols_iff_eq.2 rfl] at other
      exact absurd other (by decide)

theorem perm_layOut
    (options : List PureCost) :
    (layOut options).Perm (distinct options) :=
  perm_arrange _ _

theorem mem_layOut :
    option ∈ layOut options ↔ option ∈ options :=
  (perm_layOut options).mem_iff.trans mem_distinct

theorem nodup_layOut
    (options : List PureCost) :
    (layOut options).Nodup :=
  (perm_layOut options).nodup_iff.2 (nodup_distinct options)

/-- Costs are laid out by their set. -/
theorem layOut_eq_of_mem_iff
    (same : ∀ option, option ∈ left ↔ option ∈ right) :
    layOut left = layOut right := by
  have permuted : (distinct left).Perm (distinct right) := by
    rw [List.perm_ext_iff_of_nodup (nodup_distinct left) (nodup_distinct right)]
    intro option
    rw [mem_distinct, mem_distinct, same]
  exact arrange_eq_of_perm _ permuted fun _ _ _ _ => eq_of_compareOptions_eq

/-- Costs are laid out in strictly ascending order. -/
theorem pairwise_layOut
    (options : List PureCost) :
    (layOut options).Pairwise fun left right => left.compareOptions right = .lt := by
  refine pairwise_lt_of_separates compareOptions (pairwise_arrange _ _) ?_
  refine (nodup_layOut options).imp ?_
  intro left right different same
  exact different (eq_of_compareOptions_eq same)

end PureCost

namespace Family

/-- What a family is, whatever the order and the repeats of the costs that it was made of. -/
structure IsCanonicalOf
    (given : List PureCost)
    (family : Family) :
    Prop where
  made : ofBills (given.map .payable) = .ok family
  sameCosts : ∀ option, PureCost.Listed option family.options ↔ PureCost.Listed option given
  distinct : family.options.Pairwise fun left right => left.cost.sameSymbols right.cost = false
  ascending : family.options.Pairwise fun left right => left.compareOptions right = .lt

theorem payableCosts_map
    (given : List PureCost) :
    payableCosts (given.map .payable) = .ok given := by
  induction given with
  | nil => rfl
  | cons first rest inductionHypothesis =>
      rw [List.map_cons, payableCosts, inductionHypothesis]

theorem isCanonicalOf_ofCosts
    (given : List PureCost) :
    IsCanonicalOf given (ofCosts given) where
  made := by
    rw [ofBills, payableCosts_map]
    rfl
  sameCosts option := by
    rw [PureCost.listed_iff_mem, PureCost.listed_iff_mem]
    exact PureCost.mem_layOut
  distinct := by
    refine (PureCost.nodup_layOut given).imp ?_
    intro left right different
    rw [← Bool.not_eq_true, PureCost.sameSymbols_iff_eq]
    exact different
  ascending := PureCost.pairwise_layOut given

/-- Families are compared by their sets of options. -/
theorem sameOptions_iff
    {left right : Family} :
    left.sameOptions right = true ↔
      ∀ option, option ∈ left.options ↔ option ∈ right.options := by
  have within (options others : List PureCost) :
      (options.all fun option => others.any fun other =>
        option.cost.sameSymbols other.cost) = true ↔ ∀ option ∈ options, option ∈ others := by
    simp only [List.all_eq_true, List.any_eq_true, PureCost.sameSymbols_iff_eq, exists_eq_right']
  unfold sameOptions
  dsimp only
  rw [Bool.and_eq_true, within, within]
  exact ⟨fun both option => ⟨both.1 option, both.2 option⟩,
    fun same => ⟨fun option => (same option).1, fun option => (same option).2⟩⟩

/--
Lists of pure costs make families in canonical form.  The families are the same exactly when the
lists name the same costs, and exactly when their options are the same one by one.
-/
theorem exists_sameOptions_iff
    (left right : List PureCost) :
    ∃ leftFamily rightFamily,
      IsCanonicalOf left leftFamily ∧ IsCanonicalOf right rightFamily ∧
        (leftFamily.sameOptions rightFamily = true ↔
          ∀ option, PureCost.Listed option left ↔ PureCost.Listed option right) ∧
        (leftFamily.sameOptions rightFamily = true ↔
          List.Forall₂ (fun one other => one.cost.sameSymbols other.cost = true)
            leftFamily.options rightFamily.options) := by
  refine ⟨ofCosts left, ofCosts right, isCanonicalOf_ofCosts left, isCanonicalOf_ofCosts right,
    ?_, ?_⟩
  · rw [sameOptions_iff]
    simp only [PureCost.listed_iff_mem, ofCosts, PureCost.mem_layOut]
  · simp only [sameOptions_iff, PureCost.sameSymbols_iff_eq, List.forall₂_eq_eq_eq, ofCosts,
      PureCost.mem_layOut]
    constructor
    · exact PureCost.layOut_eq_of_mem_iff
    · intro same option
      rw [← PureCost.mem_layOut, same, PureCost.mem_layOut]

end Family

end ManaCost
