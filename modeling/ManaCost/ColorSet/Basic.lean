import ManaCost.Color

namespace ManaCost

/-!
# Sets of colors

A color set is six bits, one for each color.  The operations of sets are those of bits, and
`ColorSet.mem_union`, `mem_inter` and `mem_sdiff` say so through membership.
-/

/-- A set of colors; the bit of a color is at its index. -/
structure ColorSet where
  bits : BitVec 6
  deriving DecidableEq

namespace ColorSet

/-- The set holds a color. -/
def contains
    (set : ColorSet)
    (color : Color) :
    Bool :=
  set.bits.getLsbD color.index

instance : Membership Color ColorSet :=
  ⟨fun set color => set.contains color = true⟩

instance (color : Color) (set : ColorSet) : Decidable (color ∈ set) :=
  inferInstanceAs (Decidable (_ = true))

instance : EmptyCollection ColorSet :=
  ⟨⟨0⟩⟩

instance : Inhabited ColorSet :=
  ⟨∅⟩

instance : Union ColorSet :=
  ⟨fun left right => ⟨left.bits ||| right.bits⟩⟩

instance : Inter ColorSet :=
  ⟨fun left right => ⟨left.bits &&& right.bits⟩⟩

instance : SDiff ColorSet :=
  ⟨fun left right => ⟨left.bits &&& ~~~right.bits⟩⟩

/-- The set of one color. -/
def single
    (color : Color) :
    ColorSet :=
  ⟨BitVec.twoPow 6 color.index⟩

/-- The set of the colors of a list. -/
def ofList
    (colors : List Color) :
    ColorSet :=
  colors.foldl (fun set color => set ∪ single color) ∅

/-- The union of a list of sets. -/
def unionAll
    (sets : List ColorSet) :
    ColorSet :=
  sets.foldl (· ∪ ·) ∅

/-- Every color of the left set is in the right one. -/
def isSubset
    (left right : ColorSet) :
    Bool :=
  left ∩ right = left

instance : HasSubset ColorSet :=
  ⟨fun left right => left.isSubset right = true⟩

instance (left right : ColorSet) : Decidable (left ⊆ right) :=
  inferInstanceAs (Decidable (_ = true))

/-- The set holds no color. -/
def isEmpty
    (set : ColorSet) :
    Bool :=
  set = ∅

/-- The colors of a set in the order of their masks. -/
def members
    (set : ColorSet) :
    List Color :=
  Color.all.filter set.contains

/-- How many colors a set holds. -/
def size
    (set : ColorSet) :
    Nat :=
  set.members.length

/-- The bits of a set as a number. -/
def mask
    (set : ColorSet) :
    Nat :=
  set.bits.toNat

/-- The color set of a mask. -/
def ofMask
    (mask : Int) :
    Except Fault ColorSet :=
  if 0 ≤ mask ∧ mask < 64 then
    .ok ⟨BitVec.ofNat 6 mask.toNat⟩
  else
    .error (.unknownMask mask)

/-- Two sets with the same members are equal. -/
theorem ext_mem
    {left right : ColorSet}
    (same : ∀ color, color ∈ left ↔ color ∈ right) :
    left = right := by
  have bit (color : Color) : left.contains color = right.contains color :=
    Bool.eq_iff_iff.2 (same color)
  have bits : left.bits = right.bits := by
    apply BitVec.eq_of_getLsbD_eq
    intro position below
    match position with
    | 0 => exact bit .white
    | 1 => exact bit .blue
    | 2 => exact bit .black
    | 3 => exact bit .red
    | 4 => exact bit .green
    | 5 => exact bit .colorless
    | _ + 6 => omega
  cases left
  cases right
  exact congrArg ColorSet.mk bits

@[simp] theorem not_mem_empty
    (color : Color) :
    color ∉ (∅ : ColorSet) := by
  cases color <;> decide

@[simp] theorem mem_union
    {color : Color}
    {left right : ColorSet} :
    color ∈ left ∪ right ↔ color ∈ left ∨ color ∈ right := by
  change (left.bits ||| right.bits).getLsbD color.index = true ↔
    left.bits.getLsbD color.index = true ∨ right.bits.getLsbD color.index = true
  simp

@[simp] theorem mem_inter
    {color : Color}
    {left right : ColorSet} :
    color ∈ left ∩ right ↔ color ∈ left ∧ color ∈ right := by
  change (left.bits &&& right.bits).getLsbD color.index = true ↔
    left.bits.getLsbD color.index = true ∧ right.bits.getLsbD color.index = true
  simp

@[simp] theorem mem_sdiff
    {color : Color}
    {left right : ColorSet} :
    color ∈ left \ right ↔ color ∈ left ∧ color ∉ right := by
  change (left.bits &&& ~~~right.bits).getLsbD color.index = true ↔
    left.bits.getLsbD color.index = true ∧ ¬right.bits.getLsbD color.index = true
  simp [Color.index_lt]

@[simp] theorem mem_single
    {member color : Color} :
    member ∈ single color ↔ member = color := by
  cases member <;> cases color <;> decide

theorem subset_iff
    {left right : ColorSet} :
    left ⊆ right ↔ ∀ color, color ∈ left → color ∈ right := by
  have reading : left ⊆ right ↔ left ∩ right = left := by
    change (decide (left ∩ right = left)) = true ↔ _
    simp
  rw [reading]
  constructor
  · intro same color member
    rw [← same] at member
    exact (mem_inter.1 member).2
  · intro inside
    apply ext_mem
    intro color
    simp only [mem_inter]
    exact ⟨And.left, fun member => ⟨member, inside color member⟩⟩

end ColorSet

end ManaCost
