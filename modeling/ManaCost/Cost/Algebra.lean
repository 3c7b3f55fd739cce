import ManaCost.Cost.Basic

namespace ManaCost.Cost

/-!
# Adding costs and replacing variables
-/

/-- Two costs together. -/
def add
    (left right : Cost) :
    Cost :=
  ofTally (left.entries.merge right.entries)

instance : Add Cost :=
  ⟨add⟩

/-- The counts of many costs together, not yet polished. -/
def totalTally
    (costs : List Cost) :
    Tally :=
  costs.foldl (fun tally cost => tally.merge cost.entries) []

/-- Many costs together, polished once. -/
def total
    (costs : List Cost) :
    Cost :=
  ofTally (totalTally costs)

/-- The counts of a cost with every copy of a variable replaced by another cost, not yet polished. -/
def substituteTally
    (cost : Cost)
    (name : Variable)
    (replacement : Cost) :
    Tally :=
  let copies := cost.count (.var name)
  let added := replacement.entries.map fun entry => (entry.1, entry.2 * copies)
  (cost.entries.without (.var name)).merge added

end ManaCost.Cost
