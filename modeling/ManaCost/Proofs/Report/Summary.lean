import Mathlib
import ManaCost.Proofs.ColorSet.Printing
import ManaCost.Proofs.Cost.Queries
import ManaCost.Report.Summary

namespace ManaCost

/-!
# Summaries agree with the symbols they list

A summary of a cost says something of the whole cost and something of each of its symbols.  The
former is read off the distinct symbols and how many there are of each, the latter off one symbol
after another.  The main statement is `Report.CostSummary.isConsistent_of`: both tell the same.
-/

namespace Symbol

theorem kind_eq_hybrid_iff
    {symbol : Symbol} :
    symbol.kind = .hybrid ↔ symbol.isPure = false := by
  rcases symbol with (_ | _ | _ | _) | _ <;> simp [kind, PureSymbol.kind, isPure]

theorem kind_eq_var_iff
    {symbol : Symbol} :
    symbol.kind = .var ↔ symbol.isVariable = true := by
  rcases symbol with (_ | _ | _ | _) | _ <;> simp [kind, PureSymbol.kind, isVariable]

end Symbol

namespace Cost

variable {cost : Cost} {symbol : Symbol}

/-- Every distinct symbol is there at least once. -/
theorem mem_symbols_iff :
    symbol ∈ cost.symbols ↔ ∃ entry ∈ cost.entries, entry.1 = symbol := by
  constructor
  · intro member
    obtain ⟨entry, held, copy⟩ := List.mem_flatMap.1 member
    exact ⟨entry, held, (List.eq_of_mem_replicate copy).symm⟩
  · rintro ⟨entry, held, rfl⟩
    exact mem_symbols_of_mem_entries held

theorem isEmpty_symbols :
    cost.symbols.isEmpty = cost.isEmpty := by
  rw [Bool.eq_iff_iff, isEmpty, List.isEmpty_iff, List.isEmpty_iff,
    List.eq_nil_iff_forall_not_mem, List.eq_nil_iff_forall_not_mem]
  simp only [mem_symbols_iff]
  constructor
  · intro none entry held
    exact none entry.1 ⟨entry, held, rfl⟩
  · rintro none symbol ⟨entry, held, -⟩
    exact none entry held

theorem isPure_iff_kind :
    cost.isPure = true ↔ ∀ symbol ∈ cost.symbols, symbol.kind ≠ .hybrid := by
  simp only [isPure, Tally.isPure, List.all_eq_true, mem_symbols_iff, forall_exists_index, and_imp,
    forall_apply_eq_imp_iff₂, ne_eq, Symbol.kind_eq_hybrid_iff, Bool.not_eq_false]

theorem varies_iff_kind :
    cost.varies = true ↔ ∃ symbol ∈ cost.symbols, symbol.kind = .var := by
  simp only [varies, List.any_eq_true, mem_symbols_iff, exists_exists_and_eq_and,
    Symbol.kind_eq_var_iff]

/-- The colors of a cost are those of its symbols. -/
theorem mem_color_iff_symbols
    {color : Color} :
    color ∈ cost.color ↔ ∃ symbol ∈ cost.symbols, color ∈ symbol.color := by
  rw [mem_color_iff_devotion, devotion_eq_countP_symbols, List.countP_pos_iff]
  simp only [decide_eq_true_eq]

/-- Symbols one after another write a cost that has any. -/
theorem text_eq_join
    (cost : Cost) :
    cost.text =
      if cost.symbols.isEmpty then "\x7b\x7d"
      else String.join (cost.symbols.map Symbol.text) := by
  have joined : String.ofList (cost.symbols.flatMap fun symbol => braced symbol.token) =
      String.join (cost.symbols.map Symbol.text) := by
    rw [← String.toList_inj, String.toList_ofList, String.toList_join, List.flatMap_map]
    simp only [Symbol.text, String.toList_ofList]
  rw [text, written, ← joined]
  by_cases none : cost.isEmpty = true
  · rw [if_pos none, if_pos (isEmpty_symbols.trans none)]
    rfl
  · rw [if_neg none, if_neg (isEmpty_symbols ▸ none)]

/-- Where values are exact in total, it makes no difference whether equal symbols are added up one
by one. -/
theorem manaValue_eq_sum
    (addUp : Amount.AddUp (cost.symbols.map Symbol.manaValue)) :
    cost.manaValue = .sum (cost.symbols.map Symbol.manaValue) ∧
      cost.manaValue.steps = ((cost.symbols.map Symbol.manaValue).map Amount.steps).sum := by
  have comes : cost.manaValue.ComesTo cost.worth :=
    comesTo_manaValue fun entry member => Amount.follows_of_isExact
      (addUp.exact _ (List.mem_map_of_mem (mem_symbols_of_mem_entries member)))
  have summed := Amount.comesTo_sum addUp.exact
  rw [← sum_steps_symbols] at comes
  exact ⟨comes.unique summed addUp.total, comes.steps_eq addUp.total⟩

end Cost

namespace Report

/-- A summary says of the whole cost what it says of the symbols one by one. -/
structure CostSummary.IsConsistent
    (summary : CostSummary) :
    Prop where
  cost_eq : summary.cost =
    if summary.symbols.isEmpty then "\x7b\x7d"
    else String.join (summary.symbols.map SymbolSummary.symbol)
  manaValue_eq : summary.manaValue = .sum (summary.symbols.map SymbolSummary.manaValue)
  /-- Nothing is lost by rounding either. -/
  steps_manaValue : summary.manaValue.steps =
    ((summary.symbols.map SymbolSummary.manaValue).map Amount.steps).sum
  map_fst_devotion : summary.devotion.map Prod.fst = ['W', 'U', 'B', 'R', 'G']
  mem_devotion : ∀ entry ∈ summary.devotion,
    entry.2 = summary.symbols.countP fun symbol => entry.1 ∈ symbol.colors
  mem_colors_iff : ∀ letter ∈ ['W', 'U', 'B', 'R', 'G', 'C'],
    letter ∈ summary.colors ↔ ∃ symbol ∈ summary.symbols, letter ∈ symbol.colors
  isPure_iff : summary.isPure = true ↔ ∀ symbol ∈ summary.symbols, symbol.kind ≠ .hybrid
  varies_iff : summary.varies = true ↔ ∃ symbol ∈ summary.symbols, symbol.kind = .var

namespace SymbolSummary

/-- The summary of a symbol has the letters of its colors. -/
theorem letter_mem_colors
    {symbol : Symbol}
    {color : Color} :
    color.letter ∈ (of symbol).colors ↔ color ∈ symbol.color :=
  ColorSet.letter_mem_letters

end SymbolSummary

namespace CostSummary

/-- The summary of a cost whose values are exact in total agrees with the symbols it lists. -/
theorem isConsistent_of
    (cost : Cost)
    (addUp : Amount.AddUp (cost.symbols.map Symbol.manaValue)) :
    (of cost).IsConsistent := by
  obtain ⟨value, steps⟩ := Cost.manaValue_eq_sum addUp
  have listed : (of cost).symbols = cost.symbols.map SymbolSummary.of := rfl
  have values : (of cost).symbols.map SymbolSummary.manaValue =
      cost.symbols.map Symbol.manaValue := by
    rw [listed, List.map_map]
    rfl
  constructor
  case cost_eq =>
    have texts : (of cost).symbols.map SymbolSummary.symbol = cost.symbols.map Symbol.text := by
      rw [listed, List.map_map]
      rfl
    have empty : (of cost).symbols.isEmpty = cost.symbols.isEmpty := List.isEmpty_map
    rw [texts]
    simp only [empty]
    exact cost.text_eq_join
  case manaValue_eq =>
    rw [values]
    exact value
  case steps_manaValue =>
    rw [values]
    exact steps
  case map_fst_devotion =>
    rfl
  case mem_devotion =>
    intro entry member
    obtain ⟨color, -, rfl⟩ := List.mem_map.1 member
    rw [listed, List.countP_map]
    simp only [Function.comp_def, SymbolSummary.letter_mem_colors]
    exact cost.devotion_eq_countP_symbols color
  case mem_colors_iff =>
    intro letter member
    have ofColor : letter ∈ Color.all.map Color.letter := member
    obtain ⟨color, -, rfl⟩ := List.mem_map.1 ofColor
    simp only [listed, List.mem_map, exists_exists_and_eq_and, SymbolSummary.letter_mem_colors]
    exact ColorSet.letter_mem_letters.trans Cost.mem_color_iff_symbols
  case isPure_iff =>
    simp only [listed, List.forall_mem_map]
    exact Cost.isPure_iff_kind
  case varies_iff =>
    simp only [listed, List.mem_map, exists_exists_and_eq_and]
    exact Cost.varies_iff_kind

/-- The hybrid of two generic mana and blue. -/
def twoOrBlue : Symbol :=
  .hybrid
    { options := [.generic .two, .pip .blue]
      laidOut := ⟨[.pip .blue, .generic .two], by decide +kernel⟩
      several := by decide }

/-- A variable, two generic mana, two white pips, a hybrid and half a red pip. -/
def xTwoWhitesTwoOrBlueHalfRed : Cost :=
  .ofSymbols [.var .x, .generic .two, .pip .white, .pip .white, twoOrBlue, .half .red]

/-- A summary of symbols of every kind, one of them twice. -/
theorem isConsistent_of_every_kind :
    Amount.AddUp (xTwoWhitesTwoOrBlueHalfRed.symbols.map Symbol.manaValue) ∧
      (of xTwoWhitesTwoOrBlueHalfRed).devotion =
          [('W', 2), ('U', 1), ('B', 0), ('R', 1), ('G', 0)] ∧
        (of xTwoWhitesTwoOrBlueHalfRed).IsConsistent := by
  have addUp : Amount.AddUp (xTwoWhitesTwoOrBlueHalfRed.symbols.map Symbol.manaValue) :=
    ⟨by decide +kernel, .inr (by decide +kernel)⟩
  exact ⟨addUp, by decide +kernel, isConsistent_of xTwoWhitesTwoOrBlueHalfRed addUp⟩

end CostSummary

end Report

end ManaCost
