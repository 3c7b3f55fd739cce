import Mathlib
import ManaCost.ColorSet.Order

namespace ManaCost.ColorSet

/-!
# The order in which colors are laid out

From the point of view of a whole, every color set has a key: its group, the position of its first
color and its size.  Sets of one and of two colors form one group, every other size is a group of
its own.  `compareIn` compares the keys part by part, which makes it a consistent weak order on
all color sets, also on sets with colors that the whole lacks.
-/

/-- Sets of one and of two colors are laid out together. -/
def layoutGroup
    (set : ColorSet) :
    Nat :=
  if set.size = 2 then 1 else set.size

/-- The position of the first color of a set inside a whole. -/
def leadPosition
    (whole set : ColorSet) :
    Nat :=
  match set.printingOrder.head? with
  | some first => whole.position first
  | none => 0

/-- The comparison of groups, then of first colors, then of sizes. -/
def compareLayout
    (whole : ColorSet) :
    ColorSet → ColorSet → Ordering :=
  compareLex (compareOn layoutGroup) (compareLex (compareOn whole.leadPosition) (compareOn size))

theorem length_printingOrder
    (set : ColorSet) :
    set.printingOrder.length = set.size := by
  revert set
  rw [forall_iff]
  decide +kernel

/-- Colors have different positions. -/
theorem position_injective
    (whole : ColorSet)
    {left right : Color}
    (same : whole.position left = whole.position right) :
    left = right := by
  revert whole left right
  rw [forall_iff]
  have decided :
      ∀ bits, ∀ left ∈ Color.all, ∀ right ∈ Color.all,
        position ⟨bits⟩ left = position ⟨bits⟩ right → left = right := by
    decide +kernel
  intro bits left right
  exact decided bits left (Color.mem_all left) right (Color.mem_all right)

/-- The sign of a difference is the comparison of its sides. -/
theorem compare_sub_zero
    (left right : Nat) :
    compare ((left : Int) - right) 0 = compare left right := by
  rcases Nat.lt_trichotomy left right with less | rfl | greater
  · rw [Nat.compare_eq_lt.2 less, Int.compare_eq_lt.2 (by omega)]
  · rw [Nat.compare_eq_eq.2 rfl, Int.compare_eq_eq.2 (by omega)]
  · rw [Nat.compare_eq_gt.2 greater, Int.compare_eq_gt.2 (by omega)]

theorem compareLayout_apply
    (whole left right : ColorSet) :
    compareLayout whole left right =
      (compare left.layoutGroup right.layoutGroup).then
        ((compare (whole.leadPosition left) (whole.leadPosition right)).then
          (compare left.size right.size)) :=
  rfl

/-- Sets of different groups are laid out by size. -/
theorem compareIn_of_layoutGroup_ne
    (whole : ColorSet)
    {left right : ColorSet}
    (different : left.layoutGroup ≠ right.layoutGroup) :
    whole.compareIn left right = compare left.layoutGroup right.layoutGroup := by
  have bySize : whole.symbolOrder left right = (left.size : Int) - right.size := by
    unfold symbolOrder
    split
    · rfl
    · rename_i special
      -- The sizes add up to three in another way than one and two, so that one set is empty.
      have empty : left.size = 0 ∨ right.size = 0 := by
        unfold layoutGroup at different
        split at different <;> split at different <;> omega
      rcases empty with leftEmpty | rightEmpty
      · rw [← length_printingOrder, List.length_eq_zero_iff] at leftEmpty
        simp [leftEmpty]
      · rw [← length_printingOrder, List.length_eq_zero_iff] at rightEmpty
        cases left.printingOrder.head? <;> simp [rightEmpty]
  have sameDirection :
      compare left.size right.size = compare left.layoutGroup right.layoutGroup := by
    unfold layoutGroup at different ⊢
    rcases Nat.lt_trichotomy left.size right.size with less | same | greater
    · rw [Nat.compare_eq_lt.2 less, eq_comm, Nat.compare_eq_lt]
      split at different <;> split at different <;> simp_all <;> omega
    · simp [same] at different
    · rw [Nat.compare_eq_gt.2 greater, eq_comm, Nat.compare_eq_gt]
      split at different <;> split at different <;> simp_all <;> omega
  rw [compareIn, bySize, compare_sub_zero, sameDirection]

/-- Sets of one group are laid out by first color, then by size. -/
theorem compareIn_of_layoutGroup_eq
    (whole : ColorSet)
    {left right : ColorSet}
    (same : left.layoutGroup = right.layoutGroup) :
    whole.compareIn left right =
      (compare (whole.leadPosition left) (whole.leadPosition right)).then
        (compare left.size right.size) := by
  have leftLength := length_printingOrder left
  have rightLength := length_printingOrder right
  unfold layoutGroup at same
  have special : ¬(left.size + right.size ≠ 3 ∧ left.size ≠ right.size) := by
    split at same <;> split at same <;> omega
  unfold compareIn symbolOrder leadPosition
  rw [if_neg special]
  cases leftOrder : left.printingOrder with
  | nil =>
      cases rightOrder : right.printingOrder with
      | nil => simp [compare_sub_zero]
      | cons second others =>
          rw [leftOrder, List.length_nil] at leftLength
          rw [rightOrder, List.length_cons] at rightLength
          split at same <;> split at same <;> omega
  | cons first leftOthers =>
      cases rightOrder : right.printingOrder with
      | nil =>
          rw [leftOrder, List.length_cons] at leftLength
          rw [rightOrder, List.length_nil] at rightLength
          split at same <;> split at same <;> omega
      | cons second rightOthers =>
          by_cases sameFirst : first = second
          · simp [sameFirst, compare_sub_zero]
          · have apart : compare (whole.position first) (whole.position second) ≠ .eq :=
              fun equal => sameFirst (whole.position_injective (Nat.compare_eq_eq.1 equal))
            cases direction : compare (whole.position first) (whole.position second) <;>
              simp_all [compare_sub_zero]

/-- Laying out compares keys. -/
theorem compareIn_eq_compareLayout
    (whole : ColorSet) :
    whole.compareIn = compareLayout whole := by
  funext left right
  rw [compareLayout_apply]
  by_cases same : left.layoutGroup = right.layoutGroup
  · rw [compareIn_of_layoutGroup_eq whole same, Nat.compare_eq_eq.2 same]
    rfl
  · rw [compareIn_of_layoutGroup_ne whole same]
    cases direction : compare left.layoutGroup right.layoutGroup with
    | eq => exact absurd (Nat.compare_eq_eq.1 direction) same
    | lt => rfl
    | gt => rfl

instance (whole : ColorSet) : Std.TransCmp whole.compareIn := by
  rw [compareIn_eq_compareLayout]
  unfold compareLayout
  infer_instance

theorem mem_unionAll
    {sets : List ColorSet}
    {color : Color} :
    color ∈ unionAll sets ↔ ∃ set ∈ sets, color ∈ set := by
  have onto (start : ColorSet) :
      color ∈ sets.foldl (· ∪ ·) start ↔ color ∈ start ∨ ∃ set ∈ sets, color ∈ set := by
    induction sets generalizing start with
    | nil =>
        simp
    | cons set rest inductionHypothesis =>
        rw [List.foldl_cons, inductionHypothesis, mem_union, List.exists_mem_cons_iff, or_assoc]
  rw [unionAll, onto]
  simp

/-- The order of sets does not matter for their union. -/
theorem unionAll_eq_of_perm
    {left right : List ColorSet}
    (same : left.Perm right) :
    unionAll left = unionAll right := by
  apply ext_mem
  intro color
  rw [mem_unionAll, mem_unionAll]
  simp only [same.mem_iff]

end ManaCost.ColorSet
