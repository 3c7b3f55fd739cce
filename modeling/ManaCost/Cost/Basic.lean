import ManaCost.Tally

namespace ManaCost

/-!
# Costs

A cost is a polished bag of symbols.  Polishing adds all generic mana up into one symbol, turns
pairs of half pips into whole pips and lays the symbols out by color, kind and text.  Generic mana
of amount zero stays only where nothing else is left: `{0}` can be paid, while a cost without
symbols, `{}`, means that there is no cost.
-/

namespace Symbol

/-- The order of symbols inside a cost of given colors. -/
def compareIn
    (whole : ColorSet)
    (left right : Symbol) :
    Ordering :=
  (whole.compareIn left.color right.color).then <|
    (compare left.kind.rank right.kind.rank).then <|
      compare left.token right.token

end Symbol

namespace Tally

/-- Turn pairs of half pips of a color into whole pips. -/
def settle
    (tally : Tally)
    (color : Color) :
    Tally :=
  let halves := tally.count (.half color)
  ((tally.without (.half color)).bump (.pip color) (halves / 2)).bump (.half color) (halves % 2)

/-- The symbols that are not generic, without pairs of half pips. -/
def settledPips
    (tally : Tally) :
    Tally :=
  (Color.all.foldl settle tally.present.nonGeneric.collected).present

/-- All generic mana as one symbol.  None is left when the total is zero, unless generic mana is
all there is. -/
def mergedGeneric
    (tally : Tally) :
    Tally :=
  let total := tally.present.genericTotal
  let alone := tally.settledPips.isEmpty && tally.present.any fun entry => entry.1.isGeneric
  if total.isPositive || alone then [(.generic total, 1)] else []

/-- The symbols of a polished tally, not yet in order. -/
def settled
    (tally : Tally) :
    Tally :=
  tally.settledPips ++ tally.mergedGeneric

/-- The order of symbols inside a cost of given colors, for entries of a tally. -/
def compareEntries
    (whole : ColorSet)
    (left right : Symbol × Nat) :
    Ordering :=
  left.1.compareIn whole right.1

/-- A tally with one generic symbol and without pairs of half pips, in the order of its colors. -/
@[irreducible] def polish
    (tally : Tally) :
    Tally :=
  arrange (compareEntries tally.settled.color) tally.settled

end Tally

namespace Tally

theorem isPure_settle
    {tally : Tally}
    (pure : tally.isPure = true)
    (color : Color) :
    (tally.settle color).isPure = true :=
  isPure_bump (isPure_bump (isPure_filter pure _) rfl _) rfl _

theorem isPure_settledPips
    {tally : Tally}
    (pure : tally.isPure = true) :
    tally.settledPips.isPure = true := by
  have settled (colors : List Color) {before : Tally} (beforePure : before.isPure = true) :
      (colors.foldl settle before).isPure = true := by
    induction colors generalizing before with
    | nil => exact beforePure
    | cons color rest inductionHypothesis =>
        exact inductionHypothesis (isPure_settle beforePure color)
  have collected : tally.present.nonGeneric.collected.isPure = true := by
    rw [collected, nonGeneric, present]
    exact isPure_merge rfl (isPure_filter (isPure_filter pure _) _)
  rw [settledPips, present]
  exact isPure_filter (settled Color.all collected) _

theorem isPure_mergedGeneric
    (tally : Tally) :
    tally.mergedGeneric.isPure = true := by
  simp only [mergedGeneric]
  split <;> rfl

/-- Polishing keeps a tally pure. -/
theorem isPure_polish
    {tally : Tally}
    (pure : tally.isPure = true) :
    tally.polish.isPure = true := by
  have settled : tally.settled.isPure = true :=
    isPure_append (isPure_settledPips pure) tally.isPure_mergedGeneric
  simp only [isPure, List.all_eq_true] at settled ⊢
  intro entry member
  rw [polish] at member
  exact settled entry ((perm_arrange _ _).mem_iff.1 member)

end Tally

/-- A polished bag of symbols. -/
structure Cost where
  entries : Tally
  polished : ∃ tally, Tally.polish tally = entries

namespace Cost

instance : DecidableEq Cost :=
  fun left right =>
    decidable_of_iff (left.entries = right.entries) <| by
      cases left
      cases right
      simp

/-- The cost of a tally. -/
def ofTally
    (tally : Tally) :
    Cost :=
  ⟨tally.polish, tally, rfl⟩

/-- The cost of a list of symbols. -/
def ofSymbols
    (symbols : List Symbol) :
    Cost :=
  ofTally (.ofSymbols symbols)

/-- No cost. -/
def empty : Cost :=
  ofTally []

instance : Inhabited Cost :=
  ⟨empty⟩

/-- A cost of nothing, which can be paid. -/
def free : Cost :=
  ofSymbols [.generic .zero]

/-- Every symbol, repeats included, in order. -/
def symbols
    (cost : Cost) :
    List Symbol :=
  cost.entries.flatMap fun entry => List.replicate entry.2 entry.1

/-- The distinct symbols, in order. -/
def distinctSymbols
    (cost : Cost) :
    List Symbol :=
  cost.entries.map Prod.fst

/-- How many symbols a cost has, repeats included. -/
def size
    (cost : Cost) :
    Nat :=
  cost.entries.foldr (fun entry others => entry.2 + others) 0

/-- The cost has no symbols. -/
def isEmpty
    (cost : Cost) :
    Bool :=
  cost.entries.isEmpty

/-- How often a cost holds a symbol. -/
def count
    (cost : Cost)
    (symbol : Symbol) :
    Nat :=
  cost.entries.count symbol

/-- The cost holds a symbol. -/
def contains
    (cost : Cost)
    (symbol : Symbol) :
    Bool :=
  cost.entries.any fun entry => entry.1 == symbol

/-- The generic mana of a cost. -/
def generic
    (cost : Cost) :
    Amount :=
  cost.entries.genericTotal

/-- The values of all symbols, added up in order from left to right; what rounding a sum loses is
not made up for later. -/
def manaValue
    (cost : Cost) :
    Amount :=
  .sum <| cost.entries.map fun entry => entry.1.manaValue.scale entry.2

/-- The colors of all symbols. -/
def color
    (cost : Cost) :
    ColorSet :=
  cost.entries.color

/-- The colors that paying a cost requires. -/
def requiredColor
    (cost : Cost) :
    ColorSet :=
  .unionAll (cost.entries.map fun entry => entry.1.requiredColor)

/-- Every symbol is pure. -/
def isPure
    (cost : Cost) :
    Bool :=
  cost.entries.isPure

/-- A tally of pure symbols makes a pure cost. -/
theorem isPure_ofTally
    {tally : Tally}
    (pure : tally.isPure = true) :
    (ofTally tally).isPure = true :=
  Tally.isPure_polish pure

/-- The cost holds a variable. -/
def varies
    (cost : Cost) :
    Bool :=
  cost.entries.any fun entry => entry.1.isVariable

/-- How many symbols are of a color; a hybrid counts once. -/
def devotion
    (cost : Cost)
    (color : Color) :
    Nat :=
  cost.entries.foldr
    (fun entry others => if color ∈ entry.1.color then entry.2 + others else others) 0

/-- Two costs hold the same symbols equally often. -/
def sameSymbols
    (left right : Cost) :
    Bool :=
  left.entries.sameCounts right.entries

/-- The written form of a cost: its symbols one after another, and `{}` when there are none. -/
def written
    (cost : Cost) :
    List Char :=
  if cost.isEmpty then
    braced []
  else
    cost.symbols.flatMap fun symbol => braced symbol.token

/-- The written form of a cost, as text. -/
def text
    (cost : Cost) :
    String :=
  String.ofList cost.written

instance : ToString Cost :=
  ⟨text⟩

/-- A cost with its value and colors, as diagnostics show it. -/
def describe
    (cost : Cost) :
    String :=
  cost.text ++ " (value " ++ cost.manaValue.oneDecimal ++ ", color " ++ cost.color.name ++
    ", min color " ++ cost.requiredColor.name ++
    (if cost.isPure then ", pure)" else ", hybrid)")

end Cost

end ManaCost
