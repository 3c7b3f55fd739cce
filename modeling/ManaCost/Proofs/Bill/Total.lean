import ManaCost.Proofs.Bill.Purity

namespace ManaCost.Bill

/-!
# Bills added up

The main statement is `Bill.add_isCommMonoid`: bills are added like the members of a commutative
monoid, and their total is their sum.
-/

theorem cost_foldl_add
    (bills : List Bill)
    (start : Bill) :
    (bills.foldl add start).cost = (bills.map cost).foldl Cost.add start.cost := by
  induction bills generalizing start with
  | nil =>
      rfl
  | cons bill rest inductionHypothesis =>
      rw [List.foldl_cons, inductionHypothesis, cost_add, List.map_cons, List.foldl_cons]

/--
Two bills may be added in either order, whatever their amounts, and the sum has the same symbols and
the same text.  A bill without symbols adds nothing.  Bills whose generic mana adds up without
rounding may be grouped in any way, and may be totalled in any order instead of being added one after
another.
-/
theorem add_isCommMonoid
    (first second third : Bill)
    {nothing : Bill}
    (isEmpty : nothing.cost.isEmpty = true)
    {bills order : List Bill}
    (same : order.Perm bills) :
    first.add second = second.add first ∧
      (first.add nothing).cost = first.cost ∧
        (nothing.add first).cost = first.cost ∧
          (Amount.AddUp ([first, second, third].map fun bill => bill.cost.generic) →
            (first.add second).add third = first.add (second.add third)) ∧
            (Amount.AddUp (bills.map fun bill => bill.cost.generic) →
              (total order .plain).map cost = .ok (bills.foldl add nothing).cost) := by
  refine ⟨?_, ?_, ?_, ?_, ?_⟩
  · rw [add_eq, add_eq, Cost.add_comm]
  · rw [cost_add, Cost.add_of_isEmpty _ isEmpty]
  · rw [cost_add, Cost.add_left_of_isEmpty _ isEmpty]
  · intro addUp
    rw [add_eq, cost_add, add_eq, cost_add, Cost.add_assoc addUp]
  · intro addUp
    have costsAddUp : Amount.AddUp ((bills.map cost).map Cost.generic) := by
      rwa [List.map_map]
    rw [total_plain, cost_foldl_add,
      Cost.total_eq_foldl_add (same.map cost) costsAddUp isEmpty, Except.map, cost_classify]

/-- No symbols at all. -/
def noSymbols : Bill :=
  .plain .empty

/-- No generic mana, as a symbol. -/
def zeroGeneric : Bill :=
  classify .free

/-- Half a generic mana and half a white pip. -/
def halfGenericHalfWhite : Bill :=
  classify (.ofSymbols [.generic .half, .half .white])

/-- Half a white pip and a variable. -/
def halfWhiteX : Bill :=
  classify (.ofSymbols [.half .white, .var .x])

/-- Half pips and halves of generic mana pair up across bills, and `{0}` adds nothing. -/
theorem add_isCommMonoid_half_white :
    noSymbols.cost.isEmpty = true ∧
      Amount.AddUp ([halfGenericHalfWhite, halfWhiteX, halfGenericHalfWhite].map
        fun bill => bill.cost.generic) ∧
        halfGenericHalfWhite.add (halfWhiteX.add halfGenericHalfWhite) =
          classify (.ofSymbols [.generic .one, .pip .white, .half .white, .var .x]) ∧
          (total [halfWhiteX, halfGenericHalfWhite, zeroGeneric, halfGenericHalfWhite]
              .plain).map cost =
            .ok (.ofSymbols [.generic .one, .pip .white, .half .white, .var .x]) := by
  have isEmpty : noSymbols.cost.isEmpty = true := by decide +kernel
  have addUp : Amount.AddUp ([halfGenericHalfWhite, halfWhiteX, halfGenericHalfWhite].map
      fun bill => bill.cost.generic) :=
    ⟨by decide +kernel, .inr (by decide +kernel)⟩
  have allAddUp :
      Amount.AddUp ([halfGenericHalfWhite, zeroGeneric, halfGenericHalfWhite, halfWhiteX].map
        fun bill => bill.cost.generic) :=
    ⟨by decide +kernel, .inr (by decide +kernel)⟩
  obtain ⟨-, -, -, grouped, totalled⟩ :=
    add_isCommMonoid halfGenericHalfWhite halfWhiteX halfGenericHalfWhite isEmpty
      (List.reverse_perm [halfGenericHalfWhite, zeroGeneric, halfGenericHalfWhite, halfWhiteX])
  have inTurn : (halfGenericHalfWhite.add halfWhiteX).add halfGenericHalfWhite =
      classify (.ofSymbols [.generic .one, .pip .white, .half .white, .var .x]) := by
    decide +kernel
  have oneByOne :
      ([halfGenericHalfWhite, zeroGeneric, halfGenericHalfWhite, halfWhiteX].foldl add
          noSymbols).cost =
        .ofSymbols [.generic .one, .pip .white, .half .white, .var .x] := by
    decide +kernel
  exact ⟨isEmpty, addUp, (grouped addUp).symm.trans inTurn,
    (totalled allAddUp).trans (congrArg Except.ok oneByOne)⟩

end ManaCost.Bill
