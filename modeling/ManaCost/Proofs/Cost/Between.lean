import Mathlib
import ManaCost.Proofs.ColorSet.Pair
import ManaCost.Proofs.Cost.Canonical
import ManaCost.Proofs.Symbol.Hybrid

namespace ManaCost

/-!
# Hybrids between their pips

A hybrid of two pips is laid out right behind the pip that it is written with first.  It stands
between its pips when the cost prints their colors in the same order as the hybrid does, and behind
both of them when it prints them the other way round.  The main statement is
`Cost.isBetween_iff_printed_alike`.
-/

/-- No copy of the second item stands before a copy of the first. -/
def StandsBefore
    {α : Type}
    (first second : α)
    (items : List α) :
    Prop :=
  ¬[second, first].Sublist items

/-- All copies of an item stand behind those of one of two others and before those of the other. -/
def IsBetween
    {α : Type}
    (item one other : α)
    (items : List α) :
    Prop :=
  StandsBefore one item items ∧ StandsBefore item other items ∨
    StandsBefore other item items ∧ StandsBefore item one items

/-- Two items of a list do not stand before each other. -/
theorem StandsBefore.asymm
    {α : Type}
    {first second : α}
    {items : List α}
    (before : StandsBefore first second items)
    (firstMember : first ∈ items)
    (secondMember : second ∈ items)
    (different : first ≠ second) :
    ¬StandsBefore second first items := by
  obtain ⟨earlier, later, rfl⟩ := List.mem_iff_append.1 firstMember
  rcases List.mem_append.1 secondMember with inEarlier | inRest
  · refine absurd ?_ before
    exact (List.singleton_sublist.2 inEarlier).append (List.singleton_sublist.2 (.head _))
  · have inLater := (List.mem_cons.1 inRest).resolve_left different.symm
    refine not_not_intro ?_
    exact ((List.singleton_sublist.2 inLater).cons_cons first).trans
      (List.sublist_append_right earlier _)

namespace Hybrid

variable {one other : Color} {hybrid : Hybrid}

/-- A hybrid of two pips is of two colors. -/
theorem ne_of_made
    (made : ofOptions? [.pip one, .pip other] = some hybrid) :
    one ≠ other := by
  rintro rfl
  obtain ⟨first, firstMember, second, secondMember, different⟩ :=
    (ofOptions?_eq_some_iff.1 made).1
  simp only [List.mem_cons, List.not_mem_nil, or_false, or_self] at firstMember secondMember
  exact different (firstMember.trans secondMember.symm)

/-- A hybrid of two pips has their colors. -/
theorem color_of_made
    (made : ofOptions? [.pip one, .pip other] = some hybrid) :
    hybrid.color = .single one ∪ .single other := by
  apply ColorSet.ext_mem
  intro color
  have options := (ofOptions?_eq_some_iff.1 made).2
  rw [Hybrid.color, unionColor, ColorSet.mem_unionAll, ColorSet.mem_union]
  constructor
  · rintro ⟨set, colorOf, inside⟩
    obtain ⟨option, member, rfl⟩ := List.mem_map.1 colorOf
    rcases List.mem_pair.1 ((options option).1 member) with rfl | rfl
    · exact .inl inside
    · exact .inr inside
  · rintro (inside | inside)
    · exact ⟨_, List.mem_map_of_mem ((options _).2 (.head _)), inside⟩
    · exact ⟨_, List.mem_map_of_mem ((options _).2 (.tail _ (.head _))), inside⟩

end Hybrid

namespace Symbol

/-- A pip comes before a hybrid unless the hybrid is printed with an earlier color first. -/
theorem compareIn_pip_hybrid
    {whole : ColorSet}
    {lead next : Color}
    {hybrid : Hybrid}
    (printed : hybrid.color.printingOrder = [lead, next])
    (color : Color) :
    (pip color).compareIn whole (.hybrid hybrid) =
      (compare (whole.position color) (whole.position lead)).then .lt := by
  have colors : whole.compareIn (pip color).color (Symbol.hybrid hybrid).color =
      (compare (whole.position color) (whole.position lead)).then .lt :=
    ColorSet.compareIn_single printed color
  rw [Symbol.compareIn, colors]
  cases compare (whole.position color) (whole.position lead) <;> rfl

end Symbol

namespace Cost

variable {cost : Cost} {one other lead next : Color} {hybrid : Hybrid}

/-- Different symbols of a cost ascend, repeats included. -/
theorem pairwise_symbols
    (cost : Cost) :
    cost.symbols.Pairwise fun left right =>
      left = right ∨ left.compareIn cost.color right = .lt := by
  rw [symbols, List.pairwise_flatMap]
  constructor
  · intro entry _
    exact List.pairwise_replicate.2 (.inr (.inl rfl))
  · refine cost.canonical_entries.ascending.imp ?_
    intro left right before first firstCopy second secondCopy
    rw [List.eq_of_mem_replicate firstCopy, List.eq_of_mem_replicate secondCopy]
    exact .inr before

/-- Symbols that are laid out earlier stand before the others. -/
theorem standsBefore_of_compareIn_eq_lt
    {first second : Symbol}
    (before : first.compareIn cost.color second = .lt) :
    StandsBefore first second cost.symbols := by
  intro reversed
  have swapped : first.compareIn cost.color second =
      (second.compareIn cost.color first).swap :=
    Std.OrientedCmp.eq_swap
  rw [swapped] at before
  rcases List.pairwise_iff_forall_sublist.1 cost.pairwise_symbols reversed with rfl | after
  · have itself : second.compareIn cost.color second = .eq := Std.ReflCmp.compare_self
    rw [itself] at before
    exact absurd before (by decide)
  · rw [after] at before
    exact absurd before (by decide)

/-- A color of a symbol is a color of the cost that holds it. -/
theorem mem_color_of_mem_symbols
    {symbol : Symbol}
    {color : Color}
    (held : symbol ∈ cost.symbols)
    (colored : color ∈ symbol.color) :
    color ∈ cost.color := by
  obtain ⟨entry, member, copy⟩ := List.mem_flatMap.1 held
  obtain rfl := List.eq_of_mem_replicate copy
  exact ColorSet.mem_unionAll.2 ⟨_, List.mem_map_of_mem member, colored⟩

/-- A hybrid stands behind the pip of the color that it is printed with first. -/
theorem standsBefore_hybrid_of_lead
    (printed : hybrid.color.printingOrder = [lead, next]) :
    StandsBefore (.pip lead) (.hybrid hybrid) cost.symbols := by
  apply standsBefore_of_compareIn_eq_lt
  rw [Symbol.compareIn_pip_hybrid printed, Nat.compare_eq_eq.2 rfl]
  rfl

/-- A hybrid stands before its other pip when the cost prints the colors alike. -/
theorem hybrid_standsBefore_of_position_lt
    (printed : hybrid.color.printingOrder = [lead, next])
    (alike : cost.color.position lead < cost.color.position next) :
    StandsBefore (.hybrid hybrid) (.pip next) cost.symbols := by
  have swapped : (Symbol.hybrid hybrid).compareIn cost.color (.pip next) =
      ((Symbol.pip next).compareIn cost.color (.hybrid hybrid)).swap :=
    Std.OrientedCmp.eq_swap
  apply standsBefore_of_compareIn_eq_lt
  rw [swapped, Symbol.compareIn_pip_hybrid printed, Nat.compare_eq_gt.2 alike]
  rfl

/-- A hybrid stands behind its other pip too when the cost prints the colors the other way round. -/
theorem standsBefore_hybrid_of_position_lt
    (printed : hybrid.color.printingOrder = [lead, next])
    (reversed : cost.color.position next < cost.color.position lead) :
    StandsBefore (.pip next) (.hybrid hybrid) cost.symbols := by
  apply standsBefore_of_compareIn_eq_lt
  rw [Symbol.compareIn_pip_hybrid printed, Nat.compare_eq_lt.2 reversed]
  rfl

/-- A hybrid stands between its pips or behind both, as the cost prints their colors. -/
theorem isBetween_iff_position_lt
    (printed : hybrid.color.printingOrder = [lead, next])
    (different : lead ≠ next)
    (holdsLead : .pip lead ∈ cost.symbols)
    (holdsNext : .pip next ∈ cost.symbols)
    (holdsHybrid : .hybrid hybrid ∈ cost.symbols) :
    (IsBetween (.hybrid hybrid) (.pip lead) (.pip next) cost.symbols ↔
        cost.color.position lead < cost.color.position next) ∧
      (¬IsBetween (.hybrid hybrid) (.pip lead) (.pip next) cost.symbols →
        StandsBefore (.pip lead) (.hybrid hybrid) cost.symbols ∧
          StandsBefore (.pip next) (.hybrid hybrid) cost.symbols) := by
  have behindLead : StandsBefore (.pip lead) (.hybrid hybrid) cost.symbols :=
    standsBefore_hybrid_of_lead printed
  have apart := fun same => different (cost.color.position_injective same)
  rcases Nat.lt_or_gt_of_ne apart with alike | reversed
  · have between : IsBetween (.hybrid hybrid) (.pip lead) (.pip next) cost.symbols :=
      .inl ⟨behindLead, hybrid_standsBefore_of_position_lt printed alike⟩
    exact ⟨iff_of_true between alike, fun outside => absurd between outside⟩
  · have behindNext := standsBefore_hybrid_of_position_lt printed reversed
    have outside : ¬IsBetween (.hybrid hybrid) (.pip lead) (.pip next) cost.symbols := by
      rintro (⟨-, beforeNext⟩ | ⟨-, beforeLead⟩)
      · exact behindNext.asymm holdsNext holdsHybrid Symbol.noConfusion beforeNext
      · exact behindLead.asymm holdsLead holdsHybrid Symbol.noConfusion beforeLead
    exact ⟨iff_of_false outside reversed.not_gt, fun _ => ⟨behindLead, behindNext⟩⟩

/--
A cost that holds two pips and the hybrid of them shows the hybrid between its pips exactly when the
cost prints their colors in the same order as the hybrid.  Otherwise the hybrid comes after both.
-/
theorem isBetween_iff_printed_alike
    (made : Hybrid.ofOptions? [.pip one, .pip other] = some hybrid)
    (holdsOne : .pip one ∈ cost.symbols)
    (holdsOther : .pip other ∈ cost.symbols)
    (holdsHybrid : .hybrid hybrid ∈ cost.symbols) :
    (IsBetween (.hybrid hybrid) (.pip one) (.pip other) cost.symbols ↔
        ([one, other].Sublist hybrid.color.printingOrder ↔
          [one, other].Sublist cost.color.printingOrder)) ∧
      (¬IsBetween (.hybrid hybrid) (.pip one) (.pip other) cost.symbols →
        StandsBefore (.pip one) (.hybrid hybrid) cost.symbols ∧
          StandsBefore (.pip other) (.hybrid hybrid) cost.symbols) := by
  have different := Hybrid.ne_of_made made
  have oneInside : one ∈ cost.color :=
    mem_color_of_mem_symbols holdsOne (ColorSet.mem_single.2 rfl)
  have otherInside : other ∈ cost.color :=
    mem_color_of_mem_symbols holdsOther (ColorSet.mem_single.2 rfl)
  have orders := ColorSet.printingOrder_pair different
  rw [← Hybrid.color_of_made made] at orders
  rw [← ColorSet.position_lt_iff_sublist oneInside otherInside]
  rcases orders with printed | printed
  · have same : [one, other].Sublist hybrid.color.printingOrder := by
      rw [printed]
    rw [iff_true_left same]
    exact isBetween_iff_position_lt printed different holdsOne holdsOther holdsHybrid
  · have notSame : ¬[one, other].Sublist hybrid.color.printingOrder := by
      intro inside
      rw [printed] at inside
      exact different (List.cons.inj (inside.eq_of_length rfl)).1
    have apart : cost.color.position one ≠ cost.color.position other :=
      fun same => different (cost.color.position_injective same)
    have turned : ¬cost.color.position one < cost.color.position other ↔
        cost.color.position other < cost.color.position one :=
      not_lt.trans ⟨fun least => lt_of_le_of_ne least apart.symm, le_of_lt⟩
    have swapped : IsBetween (.hybrid hybrid) (.pip one) (.pip other) cost.symbols ↔
        IsBetween (.hybrid hybrid) (.pip other) (.pip one) cost.symbols :=
      or_comm
    rw [iff_false_left notSame, turned, swapped]
    obtain ⟨between, outside⟩ :=
      isBetween_iff_position_lt printed different.symm holdsOther holdsOne holdsHybrid
    exact ⟨between, fun notBetween => (outside notBetween).symm⟩

/-- The hybrid of a white and a blue pip. -/
def whiteOrBlue : Hybrid :=
  (Hybrid.ofOptions? [.pip .white, .pip .blue]).get (by decide +kernel)

/-- White, blue and black are printed from white on, as white and blue are. -/
theorem isBetween_white_blue_black :
    let shown := ofSymbols [.hybrid whiteOrBlue, .pip .black, .pip .blue, .hybrid whiteOrBlue,
      .pip .white, .generic .two, .pip .white]
    Hybrid.ofOptions? [.pip .blue, .pip .white] = some whiteOrBlue ∧
      .pip .blue ∈ shown.symbols ∧ .pip .white ∈ shown.symbols ∧
        .hybrid whiteOrBlue ∈ shown.symbols ∧
          IsBetween (.hybrid whiteOrBlue) (.pip .blue) (.pip .white) shown.symbols := by
  intro shown
  have made : Hybrid.ofOptions? [.pip .blue, .pip .white] = some whiteOrBlue := by
    decide +kernel
  have holdsBlue : .pip .blue ∈ shown.symbols := by
    decide +kernel
  have holdsWhite : .pip .white ∈ shown.symbols := by
    decide +kernel
  have holdsHybrid : .hybrid whiteOrBlue ∈ shown.symbols := by
    decide +kernel
  have alike : [.blue, .white].Sublist whiteOrBlue.color.printingOrder ↔
      [.blue, .white].Sublist shown.color.printingOrder := by
    decide +kernel
  obtain ⟨between, -⟩ := isBetween_iff_printed_alike made holdsBlue holdsWhite holdsHybrid
  exact ⟨made, holdsBlue, holdsWhite, holdsHybrid, between.2 alike⟩

/-- A pip of each of three colors and one hybrid. -/
def blueRedWhite : Cost :=
  ofSymbols [.pip .white, .pip .blue, .pip .red, .hybrid whiteOrBlue]

/-- Blue, red and white are printed from blue on, but white and blue from white on. -/
theorem not_isBetween_blue_red_white :
    blueRedWhite.symbols = [.pip .blue, .pip .red, .pip .white, .hybrid whiteOrBlue] ∧
      ¬∀ (cost : Cost) (one other : Color) (hybrid : Hybrid),
        Hybrid.ofOptions? [.pip one, .pip other] = some hybrid →
          .pip one ∈ cost.symbols → .pip other ∈ cost.symbols → .hybrid hybrid ∈ cost.symbols →
            IsBetween (.hybrid hybrid) (.pip one) (.pip other) cost.symbols := by
  have shape :
      blueRedWhite.symbols = [.pip .blue, .pip .red, .pip .white, .hybrid whiteOrBlue] := by
    decide +kernel
  refine ⟨shape, fun always => ?_⟩
  have between := always blueRedWhite .white .blue whiteOrBlue (by decide +kernel)
  rw [shape] at between
  rcases between (by decide) (by decide) (by decide) with ⟨-, beforeBlue⟩ | ⟨-, beforeWhite⟩
  · exact beforeBlue (by decide)
  · exact beforeWhite (by decide)

end Cost

end ManaCost
