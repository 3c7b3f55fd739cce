import Mathlib
import ManaCost.Cost.Basic
import ManaCost.Proofs.Arrange
import ManaCost.Proofs.ColorSet.Layout
import ManaCost.Proofs.Symbol.Token

namespace ManaCost

/-!
# The order of symbols

Symbols inside a cost and options inside a hybrid are compared part by part, which makes both
comparisons consistent.  Symbols that compare as equal are equal, because their tokens are.
-/

namespace Amount

/-- Infinite amounts come last. -/
def isInfinite : Amount → Bool
  | .infinite => true
  | .finite _ _ => false

/-- Finite amounts are ordered by their steps. -/
def finiteSteps : Amount → Nat
  | .infinite => 0
  | .finite steps _ => steps

theorem compare_eq :
    (compare : Amount → Amount → Ordering) =
      compareLex (compareOn isInfinite) (compareOn finiteSteps) := by
  funext left right
  cases left <;> cases right <;> rfl

instance : Std.TransOrd Amount := by
  unfold Std.TransOrd
  rw [compare_eq]
  infer_instance

end Amount

namespace Symbol

/-- Symbols are compared by color, then by kind, then by token. -/
theorem compareIn_eq
    (whole : ColorSet) :
    compareIn whole =
      compareLex (compareThrough whole.compareIn color)
        (compareLex (compareOn fun symbol => symbol.kind.rank) (compareOn token)) :=
  rfl

instance (whole : ColorSet) : Std.TransCmp (compareIn whole) := by
  rw [compareIn_eq]
  infer_instance

/-- Symbols that compare as equal are equal. -/
theorem eq_of_compareIn_eq
    {whole : ColorSet}
    {left right : Symbol}
    (same : left.compareIn whole right = .eq) :
    left = right := by
  rw [compareIn, Ordering.then_eq_eq, Ordering.then_eq_eq] at same
  exact token_injective (Std.LawfulEqOrd.eq_of_compare same.2.2)

end Symbol

end ManaCost
