import Mathlib
import ManaCost.Proofs.Symbol.Hybrid

namespace ManaCost

/-!
# Symbols that read back

The tokens of legible options are read back, and the options make up the same hybrid.  The main
statement is `Symbol.read_braced`: a symbol with legible amounts is read back from its token between
braces.
-/

namespace Hybrid

/-- A hybrid of legible options is read back from its token. -/
theorem ofToken_token
    {hybrid : Hybrid}
    (legible : ∀ option ∈ hybrid.options, option.IsLegible) :
    ofToken hybrid.token = .ok hybrid := by
  rw [ofToken, token, splitAtSlashes_joinTokens hybrid.options_ne_nil,
    PureSymbol.pureSymbolsOf_tokens legible]
  dsimp only
  rw [ofOptions?_options]

end Hybrid

namespace Symbol

/-- A symbol is legible when all pure symbols in it are. -/
def IsLegible : Symbol → Prop
  | .single symbol => symbol.IsLegible
  | .hybrid choice => ∀ option ∈ choice.options, option.IsLegible

instance : DecidablePred IsLegible
  | .single symbol => inferInstanceAs (Decidable symbol.IsLegible)
  | .hybrid choice => inferInstanceAs (Decidable (∀ option ∈ choice.options, option.IsLegible))

/-- A legible symbol is read back from its token. -/
theorem ofToken_token
    {symbol : Symbol}
    (legible : symbol.IsLegible) :
    ofToken symbol.token = .ok symbol := by
  cases symbol with
  | single option =>
      have shape : (single option).token = option.token := rfl
      have noSlash : ¬(2 < option.token.length ∧ '/' ∈ option.token) :=
        fun hybridLike =>
          PureSymbol.not_mem_delimiters_of_mem_token hybridLike.2 (by decide)
      rw [shape, ofToken, List.isEmpty_eq_false_iff.2 option.token_ne_nil, if_neg noSlash,
        PureSymbol.ofToken_token legible]
      rfl
  | hybrid choice =>
      have shape : (hybrid choice).token = choice.token := rfl
      have notEmpty : choice.token ≠ [] :=
        (hybrid choice).token_ne_nil
      rw [shape, ofToken, List.isEmpty_eq_false_iff.2 notEmpty, if_pos choice.slash_mem_token,
        Hybrid.ofToken_token legible]
      rfl

theorem unbraced?_braced
    (token : List Char) :
    unbraced? (braced token) = some token := by
  have shape : braced token = '{' :: (token ++ ['}']) := rfl
  rw [shape, unbraced?, List.getLast?_concat, if_pos rfl, List.dropLast_concat]

/-- A legible symbol is read back from its token between braces. -/
theorem read_braced
    {symbol : Symbol}
    (legible : symbol.IsLegible) :
    read (braced symbol.token) = .ok symbol := by
  rw [read, unbraced?_braced]
  dsimp only
  rw [ofToken_token legible]

end Symbol

end ManaCost
