import ManaCost.Symbol.Basic

namespace ManaCost

/-!
# Tallies

A tally counts symbols and remembers the order in which they first arrived.  The order shows where
amounts are added up.  `Tally.count` is the view of a tally through which its operations are
described.
-/

/-- Symbols with their counts, in the order of first arrival. -/
abbrev Tally :=
  List (Symbol × Nat)

namespace Tally

/-- How often a symbol is counted. -/
def count
    (tally : Tally)
    (symbol : Symbol) :
    Nat :=
  match tally with
  | [] => 0
  | entry :: rest => if entry.1 = symbol then entry.2 else count rest symbol

/-- Count a symbol as often again; a new symbol arrives last. -/
def bump
    (tally : Tally)
    (symbol : Symbol)
    (more : Nat) :
    Tally :=
  match tally with
  | [] => [(symbol, more)]
  | entry :: rest =>
      if entry.1 = symbol then
        (symbol, entry.2 + more) :: rest
      else
        entry :: bump rest symbol more

/-- Set the count of a symbol; a new symbol arrives last. -/
def put
    (tally : Tally)
    (symbol : Symbol)
    (count : Nat) :
    Tally :=
  match tally with
  | [] => [(symbol, count)]
  | entry :: rest =>
      if entry.1 = symbol then
        (symbol, count) :: rest
      else
        entry :: put rest symbol count

/-- Forget a symbol. -/
def without
    (tally : Tally)
    (symbol : Symbol) :
    Tally :=
  tally.filter fun entry => entry.1 ≠ symbol

/-- The tally of a list of symbols. -/
def ofSymbols
    (symbols : List Symbol) :
    Tally :=
  symbols.foldl (fun tally symbol => tally.bump symbol 1) []

/-- The tally of a map from symbols to counts of any sign: the last count of a symbol holds, at the
place of the first, and a negative one counts as none. -/
def ofCounts
    (counts : List (Symbol × Int)) :
    Tally :=
  counts.foldl (fun tally entry => tally.put entry.1 entry.2.toNat) []

/-- Two tallies together. -/
def merge
    (left right : Tally) :
    Tally :=
  right.foldl (fun tally entry => tally.bump entry.1 entry.2) left

/-- Each symbol once, with all its counts, in the order of first arrival. -/
def collected
    (tally : Tally) :
    Tally :=
  merge [] tally

/-- The symbols that are counted at least once. -/
def present
    (tally : Tally) :
    Tally :=
  tally.filter fun entry => 0 < entry.2

/-- The generic amounts added up in order. -/
def genericTotal
    (tally : Tally) :
    Amount :=
  .sum <| tally.filterMap fun entry =>
    entry.1.genericAmount?.map (·.scale entry.2)

/-- The symbols that are not generic. -/
def nonGeneric
    (tally : Tally) :
    Tally :=
  tally.filter fun entry => !entry.1.isGeneric

/-- The colors of all symbols. -/
def color
    (tally : Tally) :
    ColorSet :=
  .unionAll (tally.map fun entry => entry.1.color)

/-- Every symbol of a tally is pure, those that are counted zero times too. -/
def isPure
    (tally : Tally) :
    Bool :=
  tally.all fun entry => entry.1.isPure

/-- Two tallies count every symbol as often as each other. -/
def sameCounts
    (left right : Tally) :
    Bool :=
  left.all (fun entry => right.count entry.1 == entry.2) &&
    right.all (fun entry => left.count entry.1 == entry.2)

@[simp] theorem count_nil
    (symbol : Symbol) :
    count [] symbol = 0 :=
  rfl

theorem count_cons
    (entry : Symbol × Nat)
    (rest : Tally)
    (symbol : Symbol) :
    count (entry :: rest) symbol = if entry.1 = symbol then entry.2 else count rest symbol :=
  rfl

/-- Counting a symbol again adds to its count and leaves the others. -/
theorem count_bump
    (tally : Tally)
    (added symbol : Symbol)
    (more : Nat) :
    (tally.bump added more).count symbol =
      tally.count symbol + if added = symbol then more else 0 := by
  induction tally with
  | nil => simp [bump, count]
  | cons entry rest inductionHypothesis =>
      simp only [bump]
      split
      · rename_i same
        subst same
        simp only [count_cons]
        split <;> simp_all
      · rename_i different
        simp only [count_cons, inductionHypothesis]
        split
        · rename_i found
          subst found
          simp [Ne.symm different]
        · rfl

/-- Counting a pure symbol keeps a tally pure. -/
theorem isPure_bump
    {tally : Tally}
    {symbol : Symbol}
    (pure : tally.isPure = true)
    (symbolPure : symbol.isPure = true)
    (more : Nat) :
    (tally.bump symbol more).isPure = true := by
  induction tally with
  | nil => simp [bump, isPure, symbolPure]
  | cons entry rest inductionHypothesis =>
      simp only [isPure, List.all_cons, Bool.and_eq_true] at pure inductionHypothesis
      simp only [bump]
      split
      · simp [isPure, symbolPure, pure.2]
      · simp [isPure, pure.1, inductionHypothesis pure.2]

/-- A part of a pure tally is pure. -/
theorem isPure_filter
    {tally : Tally}
    (pure : tally.isPure = true)
    (keep : Symbol × Nat → Bool) :
    isPure (tally.filter keep) = true := by
  simp only [isPure, List.all_eq_true] at pure ⊢
  intro entry member
  exact pure entry (List.mem_filter.1 member).1

theorem isPure_append
    {left right : Tally}
    (leftPure : left.isPure = true)
    (rightPure : right.isPure = true) :
    isPure (left ++ right) = true := by
  simpa [isPure] using And.intro leftPure rightPure

/-- Two pure tallies are pure together. -/
theorem isPure_merge
    {left right : Tally}
    (leftPure : left.isPure = true)
    (rightPure : right.isPure = true) :
    (left.merge right).isPure = true := by
  induction right generalizing left with
  | nil => exact leftPure
  | cons entry rest inductionHypothesis =>
      simp only [isPure, List.all_cons, Bool.and_eq_true] at rightPure
      exact inductionHypothesis (isPure_bump leftPure rightPure.1 entry.2) rightPure.2

end Tally

end ManaCost
