import ManaCost.Proofs.Bill.Purity
import ManaCost.Proofs.Cost.Canonical
import ManaCost.Proofs.Cost.Reading
import ManaCost.Proofs.Symbol.Legible

namespace ManaCost

/-!
# Written costs read back

A written cost is a row of tokens between braces, which spells the symbols of the cost because no
token holds a brace.  The main statement is `Bill.exists_ofText_text`: a bill with legible amounts is
read back from its own text.
-/

theorem Symbol.isUnbraced_token
    (symbol : Symbol) :
    IsUnbraced symbol.token :=
  fun _ => brace_not_mem_token

/-- Legible symbols are spelled by their tokens between braces. -/
theorem spells_flatMap_braced
    {symbols : List Symbol}
    (legible : ∀ symbol ∈ symbols, symbol.IsLegible) :
    Spells (symbols.flatMap fun symbol => braced symbol.token) symbols := by
  refine ⟨symbols.map Symbol.token, ?_, List.flatMap_map .., ?_⟩
  · exact List.forall_mem_map.2 fun symbol _ => symbol.isUnbraced_token
  · rw [List.forall₂_map_left_iff, List.forall₂_same]
    exact fun symbol member => Symbol.read_braced (legible symbol member)

namespace Cost

/-- A cost holds the symbols that it counts equally often as itself. -/
theorem sameSymbols_self
    (cost : Cost) :
    cost.sameSymbols cost = true := by
  have counted : (cost.entries.all fun entry => cost.entries.count entry.1 == entry.2) = true := by
    rw [List.all_eq_true]
    intro entry member
    exact beq_iff_eq.2 (mem_entries_iff.1 member).2
  rw [sameSymbols, Tally.sameCounts, counted, Bool.and_self]

/-- A cost of legible symbols is written as a text that spells them. -/
theorem spells_written
    {cost : Cost}
    (notEmpty : cost.isEmpty = false)
    (legible : ∀ symbol ∈ cost.symbols, symbol.IsLegible) :
    Spells cost.written cost.symbols := by
  rw [written, notEmpty]
  exact spells_flatMap_braced legible

/-- A cost with legible symbols is read back from its text. -/
theorem ofText_text
    {cost : Cost}
    (notEmpty : cost.isEmpty = false)
    (legible : ∀ symbol ∈ cost.symbols, symbol.IsLegible) :
    ofText cost.text = .ok cost := by
  have isRead := (readGroups_eq_ok_iff cost.written).2 (spells_written notEmpty legible)
  rw [ofText, text, String.toList_ofList, read, isRead]
  dsimp only
  rw [ofSymbols_symbols]

end Cost

namespace Bill

/-- A bill of symbols with legible amounts is read back from its text, as an equal bill with the
same symbols in the same order and the same text. -/
theorem exists_ofText_text
    {bill : Bill}
    (notEmpty : bill.cost.isEmpty = false)
    (legible : ∀ symbol ∈ bill.cost.symbols, symbol.IsLegible) :
    ∃ back : Bill,
      ofText bill.cost.text = .ok back ∧
        back.cost.sameSymbols bill.cost = true ∧
        back.cost.symbols = bill.cost.symbols ∧
        back.cost.text = bill.cost.text := by
  refine ⟨classify bill.cost, ?_, ?_, ?_, ?_⟩
  · rw [ofText_eq_map, Cost.ofText_text notEmpty legible]
    rfl
  · rw [cost_classify]
    exact bill.cost.sameSymbols_self
  · rw [cost_classify]
  · rw [cost_classify]

/-- A decimal amount, half a pip and a hybrid of three options are read back. -/
theorem exists_ofText_text_decimal_hybrid :
    ∃ bill : Bill,
      bill.cost.text = "{X}{3.14}{HR}{1½/W/P}" ∧
        bill.cost.isEmpty = false ∧
        (∀ symbol ∈ bill.cost.symbols, symbol.IsLegible) ∧
        ∃ back : Bill,
          ofText bill.cost.text = .ok back ∧
            back.cost.sameSymbols bill.cost = true ∧
            back.cost.symbols = bill.cost.symbols ∧
            back.cost.text = bill.cost.text := by
  let mixed : Symbol :=
    .hybrid
      { options := [.generic (.ofDecimal 15 (-1)), .pip .white, .phyrexian]
        laidOut := ⟨[.pip .white, .phyrexian, .generic (.ofDecimal 15 (-1))], by decide +kernel⟩
        several := by decide }
  let cost : Cost := .ofSymbols [mixed, .half .red, .generic (.ofDecimal 314 (-2)), .var .x]
  have written : (plain cost).cost.text = "{X}{3.14}{HR}{1½/W/P}" := by
    decide +kernel
  have notEmpty : (plain cost).cost.isEmpty = false := by
    decide +kernel
  have legible : ∀ symbol ∈ (plain cost).cost.symbols, symbol.IsLegible := by
    decide +kernel
  exact ⟨plain cost, written, notEmpty, legible, exists_ofText_text notEmpty legible⟩

end Bill

end ManaCost
