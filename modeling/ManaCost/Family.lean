import ManaCost.Bill
import ManaCost.Cost.Order

namespace ManaCost

/-!
# Families of costs

A family holds alternative pure costs, of which any one may be chosen.  Its options are kept without
repeats, in the order in which costs are shown.
-/

namespace PureCost

/-- The order of options: complete order of costs, then text. -/
def compareOptions
    (left right : PureCost) :
    Ordering :=
  (left.cost.compareComplete right.cost).then (compare left.cost.written right.cost.written)

/-- The distinct costs of a list, each at its first place. -/
def distinct : List PureCost → List PureCost
  | [] => []
  | option :: rest =>
      option :: (distinct rest).filter fun other => !option.cost.sameSymbols other.cost

/-- The distinct costs of a list in the order of options. -/
def layOut
    (options : List PureCost) :
    List PureCost :=
  arrange compareOptions (distinct options)

end PureCost

/-- Alternative pure costs, without repeats and in order. -/
structure Family where
  options : List PureCost
  laidOut : ∃ given, PureCost.layOut given = options

namespace Family

/-- The family of a list of costs. -/
def ofCosts
    (options : List PureCost) :
    Family :=
  ⟨PureCost.layOut options, options, rfl⟩

/-- The pure costs of bills, which must all be payable. -/
def payableCosts : List Bill → Except Fault (List PureCost)
  | [] => .ok []
  | .plain content :: _ => .error (.plainFamilyOption (Bill.plain content).inspect)
  | .payable content :: rest =>
      match payableCosts rest with
      | .error fault => .error fault
      | .ok costs => .ok (content :: costs)

/-- The family of a list of bills, which must all be payable. -/
def ofBills
    (bills : List Bill) :
    Except Fault Family :=
  (payableCosts bills).map ofCosts

/-- The value of a family is that of its dearest option. -/
def manaValue
    (family : Family) :
    Amount :=
  (family.options.map fun option => option.cost.manaValue).foldl Amount.greatest .zero

/-- The colors of all options. -/
def color
    (family : Family) :
    ColorSet :=
  .unionAll (family.options.map fun option => option.cost.color)

/-- One cost for the whole family, which is known only for a single option. -/
def factor
    (family : Family) :
    Except Fault PureCost :=
  match family.options with
  | [] => .error .emptyFamily
  | [option] => .ok option
  | _ => .error .openFamily

/-- Two families have the same options. -/
def sameOptions
    (left right : Family) :
    Bool :=
  let within (options others : List PureCost) : Bool :=
    options.all fun option => others.any fun other => option.cost.sameSymbols other.cost
  within left.options right.options && within right.options left.options

/-- The options of a family between square brackets. -/
def text
    (family : Family) :
    String :=
  "[" ++ ", ".intercalate (family.options.map fun option => option.cost.text) ++ "]"

end Family

end ManaCost
