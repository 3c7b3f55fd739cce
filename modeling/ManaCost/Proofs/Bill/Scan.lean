import ManaCost.Proofs.Bill.Reading
import ManaCost.Proofs.Bill.RoundTrip
import ManaCost.Proofs.Scan
import ManaCost.Proofs.Symbol.Grammar

namespace ManaCost

/-!
# Scans of costs

The reader of costs hands a group to the reader of symbols with its braces, and a scan without them.
Both cut groups in the same places, and a token that holds no brace writes the same symbol either
way.  The main statement is `Bill.symbolsIn_of_ofText`: a scan of a cost finds the symbols of its
groups, and a scan of a written cost finds the symbols of the cost.
-/

namespace Symbol

theorem unbraced?_of_isUnbraced
    {token : List Char}
    (unbraced : IsUnbraced token) :
    unbraced? token = some token :=
  unbraced?_eq_some_iff.2
    (.bare fun opened => (unbraced '{' (List.mem_of_head? opened)).1 rfl)

/-- Which symbol a text writes depends on what stands between its braces. -/
theorem read_eq_ok_iff
    {text token : List Char}
    (between : unbraced? text = some token)
    (symbol : Symbol) :
    read text = .ok symbol ↔ ofToken token = .ok symbol := by
  rw [read, between]
  dsimp only
  cases ofToken token <;> simp

end Symbol

/-- A token writes the same symbol with and without its braces. -/
theorem writes_iff_read
    {token : List Char}
    (unbraced : IsUnbraced token)
    (symbol : Symbol) :
    Writes token symbol ↔ Symbol.read token = .ok symbol := by
  rw [Writes, Symbol.read_eq_ok_iff (Symbol.unbraced?_braced token),
    Symbol.read_eq_ok_iff (Symbol.unbraced?_of_isUnbraced unbraced)]

/-- A token that writes a symbol is a span of that symbol. -/
theorem Writes.symbol?_ofToken
    {token : List Char}
    {symbol : Symbol}
    (writes : Writes token symbol)
    (unbraced : IsUnbraced token) :
    (Span.ofToken token).symbol? = some symbol := by
  rw [Span.ofToken, (writes_iff_read unbraced symbol).1 writes, Span.symbol?]

/-- The spans of groups are their tokens, whether these write symbols or not. -/
theorem spans_grouped
    {tokens : List (List Char)}
    (unbraced : ∀ token ∈ tokens, IsUnbraced token) :
    spans (grouped tokens) = tokens.map Span.ofToken := by
  induction tokens with
  | nil =>
      rfl
  | cons token others inductionHypothesis =>
      obtain ⟨tokenUnbraced, othersUnbraced⟩ := List.forall_mem_cons.1 unbraced
      rw [grouped_cons, spans_braced_append tokenUnbraced.not_mem_brace,
        inductionHypothesis othersUnbraced, List.map_cons]

/-- A scan finds the symbols that a text spells. -/
theorem Spells.symbolsIn_eq
    {text : List Char}
    {symbols : List Symbol}
    (spells : Spells text symbols) :
    symbolsIn text = symbols := by
  obtain ⟨tokens, unbraced, rfl, writes⟩ := spells
  rw [symbolsIn, spans_grouped unbraced]
  induction writes with
  | nil =>
      rfl
  | cons first _ inductionHypothesis =>
      obtain ⟨tokenUnbraced, othersUnbraced⟩ := List.forall_mem_cons.1 unbraced
      rw [List.map_cons, List.filterMap_cons_some (first.symbol?_ofToken tokenUnbraced),
        inductionHypothesis othersUnbraced]

namespace Cost

/-- A scan of a written cost finds its symbols; the braces of an empty cost hold none. -/
theorem symbolsIn_written
    {cost : Cost}
    (legible : ∀ symbol ∈ cost.symbols, symbol.IsLegible) :
    symbolsIn cost.written = cost.symbols := by
  cases isEmpty : cost.isEmpty with
  | true =>
      rw [isEmpty_iff.1 isEmpty]
      decide +kernel
  | false =>
      exact (spells_written isEmpty legible).symbolsIn_eq

end Cost

namespace Bill

/--
A text that is read as a bill spells the symbols that a scan of it finds, and these symbols are
collected as the same bill.  A scan of the text of a bill with legible amounts finds the symbols of
the bill in order, repeats included.
-/
theorem symbolsIn_of_ofText :
    (∀ text bill, ofText text = .ok bill →
      Spells text.toList (symbolsIn text.toList) ∧
        collect (.ofSymbols (symbolsIn text.toList)) .plain = .ok bill) ∧
      ∀ bill : Bill, (∀ symbol ∈ bill.cost.symbols, symbol.IsLegible) →
        symbolsIn bill.cost.text.toList = bill.cost.symbols := by
  constructor
  · intro text bill isRead
    obtain ⟨symbols, spells, rfl⟩ := ofText_eq_ok_iff.1 isRead
    rw [spells.symbolsIn_eq]
    exact ⟨spells, collect_ofSymbols symbols⟩
  · intro bill legible
    rw [Cost.text, String.toList_ofList, Cost.symbolsIn_written legible]

/-- A scan finds both halves of the pip that the reader makes of them, and nothing in `{}`. -/
theorem symbolsIn_of_ofText_halves :
    ∃ bill : Bill,
      ofText "{HW}{1½}{X}{HW}" = .ok bill ∧
        collect (.ofSymbols (symbolsIn "{HW}{1½}{X}{HW}".toList)) .plain = .ok bill ∧
        (∀ symbol ∈ bill.cost.symbols, symbol.IsLegible) ∧
        symbolsIn bill.cost.text.toList = bill.cost.symbols ∧
        bill.cost.text = "{X}{1½}{W}" ∧
        noSymbols.cost.text = "{}" ∧
        symbolsIn noSymbols.cost.text.toList = [] := by
  obtain ⟨scanned, written⟩ := symbolsIn_of_ofText
  let bill := classify (.ofSymbols [.var .x, .generic (.ofDecimal 15 (-1)), .pip .white])
  have isRead : ofText "{HW}{1½}{X}{HW}" = .ok bill := by
    decide +kernel
  have legible : ∀ symbol ∈ bill.cost.symbols, symbol.IsLegible := by
    decide +kernel
  have noneLegible : ∀ symbol ∈ noSymbols.cost.symbols, symbol.IsLegible := by
    decide +kernel
  have text : bill.cost.text = "{X}{1½}{W}" := by
    decide +kernel
  have noText : noSymbols.cost.text = "{}" := by
    decide +kernel
  have noSymbol : noSymbols.cost.symbols = [] := by
    decide +kernel
  exact ⟨bill, isRead, (scanned _ bill isRead).2, legible, written bill legible, text, noText,
    (written noSymbols noneLegible).trans noSymbol⟩

end Bill

end ManaCost
