import Mathlib
import ManaCost.ColorSet.Operand
import ManaCost.Proofs.ColorSet.Printing

namespace ManaCost

/-!
# Color sets and their masks

Sets are combined by their masks, and the complement of a mask is a negative number.  The bits of
the number that comes out are those of a color set again, so that no operation fails.  The main
statement is `ColorSet.holdsExactly_combined`, by which the operations on masks are those on sets of
colors, whatever operands the colors come from.
-/

/-- The bits in common are those that both numbers have; a negative number is read as its two's
complement without end. -/
theorem testBit_commonBits
    (mask : Nat)
    (bits : Int)
    (position : Nat) :
    (commonBits mask bits).testBit position =
      (mask.testBit position && Int.testBit bits position) := by
  cases bits with
  | ofNat bits =>
      exact Nat.testBit_and _ _ _
  | negSucc missing =>
      rw [commonBits, Nat.testBit_xor, Nat.testBit_and]
      change _ = (mask.testBit position && !missing.testBit position)
      cases mask.testBit position <;> cases missing.testBit position <;> rfl

namespace ColorSet

variable {set left right : ColorSet} {operands : List Operand} {color : Color}

theorem testBit_mask
    (set : ColorSet)
    (position : Nat) :
    set.mask.testBit position = set.bits.getLsbD position :=
  rfl

/-- Looking up the mask of a set gives the set. -/
theorem ofMask_mask
    (set : ColorSet) :
    ofMask set.mask = .ok set := by
  have below : set.mask < 64 := set.bits.isLt
  rw [ofMask, if_pos ⟨Int.natCast_nonneg _, by exact_mod_cast below⟩, Int.toNat_natCast, mask,
    BitVec.ofNat_toNat, BitVec.setWidth_eq]

theorem mask_single
    (color : Color) :
    (single color).mask = color.bit := by
  cases color <;> rfl

theorem mask_union
    (left right : ColorSet) :
    (left ∪ right).mask = left.mask ||| right.mask :=
  BitVec.toNat_or ..

theorem mask_inter
    (left right : ColorSet) :
    (left ∩ right).mask = commonBits left.mask right.mask :=
  BitVec.toNat_and ..

/-- The complement of a mask takes the colors of its set away. -/
theorem mask_sdiff
    (left right : ColorSet) :
    (left \ right).mask = commonBits left.mask (~~~(right.mask : Int)) := by
  refine Nat.eq_of_testBit_eq fun position => ?_
  have complement : Int.testBit (~~~(right.mask : Int)) position =
      !right.mask.testBit position :=
    rfl
  rw [testBit_commonBits, complement, testBit_mask, testBit_mask, testBit_mask]
  change (left.bits &&& ~~~right.bits).getLsbD position = _
  rw [BitVec.getLsbD_and, BitVec.getLsbD_not]
  by_cases inside : position < 6
  · simp [inside]
  · rw [BitVec.getLsbD_of_ge left.bits position (Nat.le_of_not_lt inside)]
    rfl

theorem mask_injective
    (same : left.mask = right.mask) :
    left = right := by
  have found := ofMask_mask left
  rw [same, ofMask_mask] at found
  exact (Except.ok.inj found).symm

namespace Operand

/-- The colors that an operand names, as often as it names them. -/
def named : Operand → List Color
  | .one color => [color]
  | .all set => set.printingOrder
  | .several colors => colors

/-- The colors that any of several operands names. -/
def namedIn
    (operands : List Operand) :
    Set Color :=
  {color | ∃ operand ∈ operands, color ∈ operand.named}

theorem mem_colors
    {operand : Operand} :
    color ∈ operand.colors ↔ color ∈ operand.named := by
  cases operand with
  | one other => rw [colors, mem_single, named, List.mem_singleton]
  | all set => exact mem_printingOrder.symm
  | several colors => exact mem_ofList

theorem mem_union_iff :
    color ∈ union operands ↔ color ∈ namedIn operands := by
  simp only [union, mem_unionAll, List.mem_map, exists_exists_and_eq_and, mem_colors, namedIn,
    Set.mem_ofPred_eq]

theorem addTo_eq
    (bits : Nat)
    (operand : Operand) :
    addTo bits operand = bits ||| operand.colors.mask := by
  cases operand with
  | one color => rw [addTo, colors, mask_single]
  | all set => rfl
  | several listed =>
      have onto (start : ColorSet) :
          listed.foldl (fun bits color => bits ||| color.bit) (bits ||| start.mask) =
            bits ||| (listed.foldl (fun set color => set ∪ single color) start).mask := by
        induction listed generalizing start with
        | nil => rfl
        | cons color rest inductionHypothesis =>
            rw [List.foldl_cons, List.foldl_cons, ← inductionHypothesis, mask_union, mask_single,
              Nat.or_assoc]
      have none : bits ||| (∅ : ColorSet).mask = bits := Nat.or_zero bits
      have all := onto ∅
      rw [none] at all
      exact all

/-- The mask of operands is that of all their colors. -/
theorem mask_eq
    (operands : List Operand) :
    mask operands = (union operands).mask := by
  have onto (start : ColorSet) :
      operands.foldl addTo start.mask =
        ((operands.map colors).foldl (· ∪ ·) start).mask := by
    induction operands generalizing start with
    | nil => rfl
    | cons operand rest inductionHypothesis =>
        rw [List.foldl_cons, List.map_cons, List.foldl_cons, ← inductionHypothesis, addTo_eq,
          mask_union]
  exact onto ∅

end Operand

theorem ofOperands_eq
    (operands : List Operand) :
    ofOperands operands = .ok (Operand.union operands) := by
  unfold ofOperands
  split
  · rename_i set
    refine congrArg Except.ok (ext_mem fun color => ?_)
    simp [Operand.union, mem_unionAll, Operand.colors]
  · rw [Operand.mask_eq, ofMask_mask]

theorem plus_eq
    (set : ColorSet)
    (operands : List Operand) :
    set.plus operands = .ok (set ∪ Operand.union operands) := by
  rw [plus, Operand.mask_eq, ← mask_union, ofMask_mask]

theorem minus_eq
    (set : ColorSet)
    (operands : List Operand) :
    set.minus operands = .ok (set \ Operand.union operands) := by
  rw [minus, Operand.mask_eq, ← mask_sdiff, ofMask_mask]

theorem intersection_eq
    (set : ColorSet)
    (operands : List Operand) :
    set.intersection operands = .ok (set ∩ Operand.union operands) := by
  rw [intersection, Operand.mask_eq, ← mask_inter, ofMask_mask]

theorem isSupersetOf_iff
    {operand : Operand} :
    set.isSupersetOf operand = true ↔ ∀ color, color ∈ Operand.union [operand] → color ∈ set := by
  rw [isSupersetOf, beq_iff_eq, Operand.mask_eq, ← mask_inter]
  constructor
  · intro same color member
    rw [← mask_injective same] at member
    exact (mem_inter.1 member).1
  · intro inside
    refine congrArg mask (ext_mem fun color => ?_)
    rw [mem_inter]
    exact ⟨And.right, fun member => ⟨inside color member, member⟩⟩

theorem isSubsetOf_iff
    {operand : Operand} :
    set.isSubsetOf operand = true ↔ ∀ color, color ∈ set → color ∈ Operand.union [operand] := by
  have none : (∅ : ColorSet).mask = 0 := rfl
  rw [isSubsetOf, beq_iff_eq, Operand.mask_eq, ← mask_sdiff, ← none]
  constructor
  · intro same color member
    by_contra outside
    have left : color ∈ set \ Operand.union [operand] := mem_sdiff.2 ⟨member, outside⟩
    rw [mask_injective same] at left
    exact not_mem_empty color left
  · intro inside
    refine congrArg mask (ext_mem fun color => ?_)
    rw [mem_sdiff]
    exact ⟨fun left => absurd (inside color left.1) left.2,
      fun member => absurd member (not_mem_empty color)⟩

/--
Combining a set with operands never fails and gives the set of the very colors that the operands
name, together with those of the set, without them or among them.  A set compares with one operand
as its colors do.
-/
theorem holdsExactly_combined
    (set : ColorSet)
    (operands : List Operand) :
    (∃ result, ofOperands operands = .ok result ∧
        result.HoldsExactly (Operand.namedIn operands)) ∧
      (∃ result, set.plus operands = .ok result ∧
          result.HoldsExactly ({color | color ∈ set} ∪ Operand.namedIn operands)) ∧
        (∃ result, set.minus operands = .ok result ∧
            result.HoldsExactly ({color | color ∈ set} \ Operand.namedIn operands)) ∧
          (∃ result, set.intersection operands = .ok result ∧
              result.HoldsExactly ({color | color ∈ set} ∩ Operand.namedIn operands)) ∧
            ∀ operand,
              (set.isSupersetOf operand = true ↔
                  Operand.namedIn [operand] ⊆ {color | color ∈ set}) ∧
                (set.isSubsetOf operand = true ↔
                  {color | color ∈ set} ⊆ Operand.namedIn [operand]) := by
  refine ⟨⟨_, ofOperands_eq operands, ?together⟩, ⟨_, set.plus_eq operands, ?plus⟩,
    ⟨_, set.minus_eq operands, ?minus⟩, ⟨_, set.intersection_eq operands, ?intersection⟩,
    fun operand => ⟨?superset, ?subset⟩⟩
  case together =>
    exact holdsExactly_iff.2 fun _ => Operand.mem_union_iff
  case plus =>
    refine holdsExactly_iff.2 fun color => ?_
    rw [mem_union, Operand.mem_union_iff, Set.mem_union, Set.mem_ofPred_eq]
  case minus =>
    refine holdsExactly_iff.2 fun color => ?_
    rw [mem_sdiff, Operand.mem_union_iff, Set.mem_sdiff, Set.mem_ofPred_eq]
  case intersection =>
    refine holdsExactly_iff.2 fun color => ?_
    rw [mem_inter, Operand.mem_union_iff, Set.mem_inter_iff, Set.mem_ofPred_eq]
  case superset =>
    simp only [isSupersetOf_iff, Operand.mem_union_iff]
    rfl
  case subset =>
    simp only [isSubsetOf_iff, Operand.mem_union_iff]
    rfl

/-- Colors that a set lacks are taken away from it without effect. -/
example :
    (single .red ∪ single .white).minus [.several [.red, .green, .red], .one .colorless] =
      .ok (single .white) := by
  decide +kernel

end ColorSet

end ManaCost
