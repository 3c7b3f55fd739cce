import Mathlib
import ManaCost.Proofs.Symbol.Order

namespace ManaCost

/-!
# What makes a hybrid

Options are laid out in one order that does not depend on how they were given, so that a hybrid is
made by the set of its options.  The main statement is `Hybrid.ofOptions?_eq_some_iff`.
-/

theorem nodup_eraseDups
    {α : Type}
    [BEq α]
    [LawfulBEq α]
    (items : List α) :
    items.eraseDups.Nodup := by
  induction size : items.length using Nat.strong_induction_on generalizing items with
  | _ bound inductionHypothesis =>
      cases items with
      | nil =>
          exact List.nodup_nil
      | cons item rest =>
          rw [List.eraseDups_cons, List.nodup_cons]
          constructor
          · intro member
            have kept := (List.mem_filter.1 (List.mem_eraseDups.1 member)).2
            rw [beq_self_eq_true] at kept
            exact absurd kept (by decide)
          · have shorter : (rest.filter fun other => !other == item).length < bound := by
              rw [← size]
              exact Nat.lt_succ_of_le (List.length_filter_le _ _)
            exact inductionHypothesis _ shorter _ rfl

namespace PureSymbol

/-- Options are compared by life, then by color, then by value, then by token. -/
theorem compareOptions_eq
    (whole : ColorSet) :
    compareOptions whole =
      compareLex (compareOn fun option => option == phyrexian)
        (compareLex (compareThrough whole.compareIn color)
          (compareLex (compareOn manaValue) (compareOn token))) :=
  rfl

instance (whole : ColorSet) : Std.TransCmp (compareOptions whole) := by
  rw [compareOptions_eq]
  infer_instance

/-- Options that compare as equal are equal. -/
theorem eq_of_compareOptions_eq
    {whole : ColorSet}
    {left right : PureSymbol}
    (same : left.compareOptions whole right = .eq) :
    left = right := by
  rw [compareOptions, Ordering.then_eq_eq, Ordering.then_eq_eq, Ordering.then_eq_eq] at same
  exact token_injective (Std.LawfulEqOrd.eq_of_compare same.2.2.2)

end PureSymbol

namespace Hybrid

theorem perm_layOut
    (given : List PureSymbol) :
    (layOut given).Perm given.eraseDups :=
  perm_arrange _ _

theorem nodup_layOut
    (given : List PureSymbol) :
    (layOut given).Nodup :=
  (perm_layOut given).nodup_iff.2 (nodup_eraseDups given)

theorem mem_layOut
    {given : List PureSymbol}
    {option : PureSymbol} :
    option ∈ layOut given ↔ option ∈ given :=
  (perm_layOut given).mem_iff.trans List.mem_eraseDups

/-- Options are laid out by their set. -/
theorem layOut_eq_of_mem_iff
    {left right : List PureSymbol}
    (same : ∀ option, option ∈ left ↔ option ∈ right) :
    layOut left = layOut right := by
  have permuted : left.eraseDups.Perm right.eraseDups := by
    rw [List.perm_ext_iff_of_nodup (nodup_eraseDups left) (nodup_eraseDups right)]
    intro option
    rw [List.mem_eraseDups, List.mem_eraseDups, same]
  have sameColors : unionColor left.eraseDups = unionColor right.eraseDups :=
    ColorSet.unionAll_eq_of_perm (permuted.map _)
  unfold layOut
  dsimp only
  rw [sameColors]
  exact arrange_eq_of_perm _ permuted fun _ _ _ _ => PureSymbol.eq_of_compareOptions_eq

/-- The options of a hybrid stay as they are. -/
theorem layOut_options
    (hybrid : Hybrid) :
    layOut hybrid.options = hybrid.options := by
  obtain ⟨given, shape⟩ := hybrid.laidOut
  rw [← shape]
  exact layOut_eq_of_mem_iff fun _ => mem_layOut

/-- Hybrids with the same options are equal. -/
theorem eq_of_mem_iff
    {left right : Hybrid}
    (same : ∀ option, option ∈ left.options ↔ option ∈ right.options) :
    left = right := by
  have options : left.options = right.options := by
    rw [← left.layOut_options, ← right.layOut_options, layOut_eq_of_mem_iff same]
  cases left
  cases right
  obtain rfl := options
  rfl

/-- Two options are left exactly when two different ones were given. -/
theorem two_le_length_layOut_iff
    {given : List PureSymbol} :
    2 ≤ (layOut given).length ↔ ∃ one ∈ given, ∃ other ∈ given, one ≠ other := by
  have distinct := nodup_layOut given
  simp only [← @mem_layOut given]
  generalize layOut given = options at distinct ⊢
  constructor
  · intro several
    match options, several with
    | first :: second :: rest, _ =>
        refine ⟨first, .head _, second, .tail _ (.head _), ?_⟩
        rintro rfl
        exact (List.nodup_cons.1 distinct).1 (.head _)
  · rintro ⟨one, oneMember, other, otherMember, different⟩
    match options, oneMember, otherMember with
    | [only], oneMember, otherMember =>
        rw [List.mem_singleton] at oneMember otherMember
        exact absurd (oneMember.trans otherMember.symm) different
    | _ :: _ :: rest, _, _ => exact Nat.le_add_left 2 rest.length

/-- Two different options make the hybrid of their set. -/
theorem ofOptions?_eq_some_iff
    {given : List PureSymbol}
    {hybrid : Hybrid} :
    ofOptions? given = some hybrid ↔
      (∃ one ∈ given, ∃ other ∈ given, one ≠ other) ∧
        ∀ option, option ∈ hybrid.options ↔ option ∈ given := by
  rw [← two_le_length_layOut_iff, ofOptions?]
  constructor
  · intro made
    split at made
    · rename_i several
      rw [← Option.some.inj made]
      exact ⟨several, fun _ => mem_layOut⟩
    · exact absurd made (Option.some_ne_none hybrid).symm
  · rintro ⟨several, same⟩
    rw [dif_pos several]
    congr 1
    exact eq_of_mem_iff fun option => mem_layOut.trans (same option).symm

/-- Two different options are among those of a hybrid. -/
theorem exists_of_several
    {given : List PureSymbol}
    (several : ∃ one ∈ given, ∃ other ∈ given, one ≠ other) :
    ∃ hybrid : Hybrid, ∀ option, option ∈ hybrid.options ↔ option ∈ given :=
  ⟨⟨layOut given, ⟨given, rfl⟩, two_le_length_layOut_iff.2 several⟩, fun _ => mem_layOut⟩

/-- The options of a hybrid make up the hybrid. -/
theorem ofOptions?_options
    (hybrid : Hybrid) :
    ofOptions? hybrid.options = some hybrid := by
  have several : 2 ≤ (layOut hybrid.options).length := by
    rw [hybrid.layOut_options]
    exact hybrid.several
  exact ofOptions?_eq_some_iff.2 ⟨two_le_length_layOut_iff.1 several, fun _ => Iff.rfl⟩

end Hybrid

end ManaCost
