import ManaCost.Proofs.Bill.Sum

namespace ManaCost.Bill

/-!
# Variables replaced in bills

What takes the place of a variable is polished together with the rest of the bill, and a bill is
polished again each time.  The main statements are `substitute_add`, by which a variable may be
replaced in two bills or in their sum, and `substitute_comm`, by which two variables may be replaced
in either order.
-/

/--
A variable may be replaced in a sum or in both of its bills, however often it occurs in either, and
also when it occurs in what takes its place.  That must have symbols, because `{0}` beside a variable
does not outlive it.
-/
theorem substitute_add
    (left right : Bill)
    (name : Variable)
    {replacement : Bill}
    (isPure : replacement.cost.isPure = true)
    (some : replacement.cost.isEmpty = false)
    (addUp : Amount.AddUp (left.cost.generic :: right.cost.generic ::
      List.replicate (left.cost.count (.var name) + right.cost.count (.var name))
        replacement.cost.generic)) :
    ∃ leftResult rightResult,
      left.substitute name replacement = .ok leftResult ∧
        right.substitute name replacement = .ok rightResult ∧
          (left.add right).substitute name replacement = .ok (leftResult.add rightResult) := by
  refine ⟨_, _, substitute_of_isPure left name isPure, substitute_of_isPure right name isPure, ?_⟩
  rw [substitute_of_isPure _ name isPure, cost_add, Cost.substituted_add addUp some, add_eq,
    cost_classify, cost_classify]

/-- A variable, half a generic mana, half a white pip and a hybrid. -/
def xBesideHybrid : Bill :=
  .plain (.ofSymbols [.var .x, .generic .half, .half .white, whiteBlue])

/-- A variable twice, half a white pip and a red one. -/
def twoXHalfWhiteRed : Bill :=
  classify (.ofSymbols [.var .x, .var .x, .half .white, .pip .red])

/-- A variable, half a generic mana and half a white pip. -/
def xHalfHalfWhite : Bill :=
  classify (.ofSymbols [.var .x, .generic .half, .half .white])

/-- White half pips are paired in different places on the two ways, and every `{X}` comes back. -/
theorem substitute_add_half_whites :
    xHalfHalfWhite.cost.isPure = true ∧
      xHalfHalfWhite.cost.isEmpty = false ∧
        Amount.AddUp (xBesideHybrid.cost.generic :: twoXHalfWhiteRed.cost.generic ::
          List.replicate
            (xBesideHybrid.cost.count (.var .x) + twoXHalfWhiteRed.cost.count (.var .x))
            xHalfHalfWhite.cost.generic) ∧
          ∃ leftResult rightResult,
            xBesideHybrid.substitute .x xHalfHalfWhite = .ok leftResult ∧
              twoXHalfWhiteRed.substitute .x xHalfHalfWhite = .ok rightResult ∧
                (xBesideHybrid.add twoXHalfWhiteRed).substitute .x xHalfHalfWhite =
                  .ok (leftResult.add rightResult) ∧
                  (leftResult.add rightResult).cost.text = "{X}{X}{X}{2}{R}{W}{W}{HW}{W/U}" := by
  have isPure : xHalfHalfWhite.cost.isPure = true := by decide +kernel
  have some : xHalfHalfWhite.cost.isEmpty = false := by decide +kernel
  have addUp : Amount.AddUp (xBesideHybrid.cost.generic :: twoXHalfWhiteRed.cost.generic ::
      List.replicate (xBesideHybrid.cost.count (.var .x) + twoXHalfWhiteRed.cost.count (.var .x))
        xHalfHalfWhite.cost.generic) :=
    ⟨by decide +kernel, .inr (by decide +kernel)⟩
  have written : (classify ((xBesideHybrid.add twoXHalfWhiteRed).cost.substituted .x
      xHalfHalfWhite.cost)).cost.text = "{X}{X}{X}{2}{R}{W}{W}{HW}{W/U}" := by
    decide +kernel
  obtain ⟨leftResult, rightResult, inLeft, inRight, inSum⟩ :=
    substitute_add xBesideHybrid twoXHalfWhiteRed .x isPure some addUp
  have result := inSum
  rw [substitute_of_isPure _ _ isPure] at result
  rw [Except.ok.inj result] at written
  exact ⟨isPure, some, addUp, leftResult, rightResult, inLeft, inRight, inSum, written⟩

/-- With nothing in place of a variable, `{0}` is lost in the sum only. -/
example :
    (zeroGeneric.add (classify (.ofSymbols [.var .x]))).substitute .x noSymbols =
        .ok (classify .empty) ∧
      zeroGeneric.substitute .x noSymbols = .ok zeroGeneric := by
  decide +kernel

/-- Two pure bills may take the place of two variables one after the other. -/
theorem substitute_bind_substitute
    (bill : Bill)
    {first second : Bill}
    (name other : Variable)
    (firstPure : first.cost.isPure = true)
    (secondPure : second.cost.isPure = true) :
    (bill.substitute name first).bind (fun replaced => replaced.substitute other second) =
      .ok (classify ((bill.cost.substituted name first.cost).substituted other second.cost)) := by
  rw [substitute_of_isPure bill name firstPure, Except.bind, substitute_of_isPure _ other secondPure,
    cost_classify]

/--
Two variables may be replaced in either order when neither is in what takes the place of the other.
A variable may well be in what takes its own place.
-/
theorem substitute_comm
    (bill : Bill)
    {first second : Bill}
    {name other : Variable}
    (different : name ≠ other)
    (firstPure : first.cost.isPure = true)
    (secondPure : second.cost.isPure = true)
    (firstSome : first.cost.isEmpty = false)
    (secondSome : second.cost.isEmpty = false)
    (firstFree : first.cost.contains (.var other) = false)
    (secondFree : second.cost.contains (.var name) = false)
    (addUp : Amount.AddUp (bill.cost.generic ::
      (List.replicate (bill.cost.count (.var name)) first.cost.generic ++
        List.replicate (bill.cost.count (.var other)) second.cost.generic))) :
    ∃ result,
      (bill.substitute name first).bind (fun replaced => replaced.substitute other second) =
          .ok result ∧
        (bill.substitute other second).bind (fun replaced => replaced.substitute name first) =
          .ok result := by
  have inTurn := Cost.substituted_comm different (Cost.contains_eq_false_iff.1 firstFree)
    (Cost.contains_eq_false_iff.1 secondFree) firstSome secondSome addUp
  refine ⟨_, substitute_bind_substitute bill name other firstPure secondPure, ?_⟩
  rw [substitute_bind_substitute bill other name secondPure firstPure, inTurn]

/-- A variable twice, another one and half a white pip. -/
def twoXYHalfWhite : Bill :=
  classify (.ofSymbols [.var .x, .var .x, .var .y, .half .white])

/-- Half a generic mana and three halves of a white pip. -/
def halfThreeHalfWhites : Bill :=
  classify (.ofSymbols [.generic .half, .half .white, .half .white, .half .white])

/-- In one order `{X}{X}{Y}{1}{W}{HW}` comes between, in the other `{X}{X}{½}{W}{W}`. -/
theorem substitute_comm_half_whites :
    Variable.x ≠ .y ∧
      xHalfHalfWhite.cost.isPure = true ∧
      halfThreeHalfWhites.cost.isPure = true ∧
      xHalfHalfWhite.cost.isEmpty = false ∧
      halfThreeHalfWhites.cost.isEmpty = false ∧
      xHalfHalfWhite.cost.contains (.var .y) = false ∧
      halfThreeHalfWhites.cost.contains (.var .x) = false ∧
      Amount.AddUp (twoXYHalfWhite.cost.generic ::
        (List.replicate (twoXYHalfWhite.cost.count (.var .x)) xHalfHalfWhite.cost.generic ++
          List.replicate (twoXYHalfWhite.cost.count (.var .y))
            halfThreeHalfWhites.cost.generic)) ∧
      ∃ result,
        (twoXYHalfWhite.substitute .x xHalfHalfWhite).bind
            (fun replaced => replaced.substitute .y halfThreeHalfWhites) = .ok result ∧
          (twoXYHalfWhite.substitute .y halfThreeHalfWhites).bind
              (fun replaced => replaced.substitute .x xHalfHalfWhite) = .ok result ∧
            result.cost.text = "{X}{X}{1½}{W}{W}{W}" := by
  have different : Variable.x ≠ .y := by decide
  have firstPure : xHalfHalfWhite.cost.isPure = true := by decide +kernel
  have secondPure : halfThreeHalfWhites.cost.isPure = true := by decide +kernel
  have firstSome : xHalfHalfWhite.cost.isEmpty = false := by decide +kernel
  have secondSome : halfThreeHalfWhites.cost.isEmpty = false := by decide +kernel
  have firstFree : xHalfHalfWhite.cost.contains (.var .y) = false := by decide +kernel
  have secondFree : halfThreeHalfWhites.cost.contains (.var .x) = false := by decide +kernel
  have addUp : Amount.AddUp (twoXYHalfWhite.cost.generic ::
      (List.replicate (twoXYHalfWhite.cost.count (.var .x)) xHalfHalfWhite.cost.generic ++
        List.replicate (twoXYHalfWhite.cost.count (.var .y))
          halfThreeHalfWhites.cost.generic)) :=
    ⟨by decide +kernel, .inr (by decide +kernel)⟩
  have written : (classify ((twoXYHalfWhite.cost.substituted .x xHalfHalfWhite.cost).substituted .y
      halfThreeHalfWhites.cost)).cost.text = "{X}{X}{1½}{W}{W}{W}" := by
    decide +kernel
  obtain ⟨result, inTurn, otherWay⟩ := substitute_comm twoXYHalfWhite different firstPure
    secondPure firstSome secondSome firstFree secondFree addUp
  have computed := inTurn
  rw [substitute_bind_substitute _ _ _ firstPure secondPure] at computed
  rw [Except.ok.inj computed] at written
  exact ⟨different, firstPure, secondPure, firstSome, secondSome, firstFree, secondFree, addUp,
    result, inTurn, otherWay, written⟩

end ManaCost.Bill
