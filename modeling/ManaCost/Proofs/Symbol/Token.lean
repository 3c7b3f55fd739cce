import Mathlib
import ManaCost.Proofs.Amount.Legible

namespace ManaCost

/-!
# Tokens of symbols

Tokens of pure symbols hold neither slashes nor braces, and no two pure symbols have one token.  A
hybrid token is split at its slashes into the tokens of its options, so that hybrids are told apart
by their tokens too.
-/

/-- The characters that have a meaning around tokens. -/
def delimiters : List Char :=
  ['/', '{', '}']

namespace PureSymbol

/-- A pure symbol has a code of letters unless it is generic. -/
theorem mem_coded_or_generic
    (symbol : PureSymbol) :
    symbol ∈ coded ∨ ∃ amount, symbol = .generic amount := by
  cases symbol with
  | generic amount => exact .inr ⟨amount, rfl⟩
  | atom fixed =>
      refine .inl ?_
      rcases fixed with color | _ | _ | _ | _
      · cases color <;> decide
      all_goals decide
  | half color => cases color <;> exact .inl (by decide)
  | var name => cases name <;> exact .inl (by decide)

/-- Amounts begin with a digit or a glyph. -/
def beginsAmount
    (first : Char) :
    Bool :=
  first.isDigit || first == Amount.halfGlyph || first == Amount.infinityGlyph

/-- Codes of letters begin with a letter. -/
theorem head_of_mem_coded :
    ∀ symbol ∈ coded, symbol.token.head?.map beginsAmount = some false := by
  decide +kernel

/-- Tokens of amounts do not begin with a letter. -/
theorem head_token_amount
    (amount : Amount) :
    amount.token.head?.map beginsAmount = some true := by
  obtain ⟨first, rest, shape, kind⟩ := amount.head_token
  rw [shape, List.head?_cons, Option.map_some, beginsAmount]
  rcases kind with digit | rfl | rfl
  · rw [digit, Bool.true_or, Bool.true_or]
  · decide
  · decide

/-- Codes and amounts have different tokens. -/
theorem token_ne_of_mem_coded
    {symbol : PureSymbol}
    (member : symbol ∈ coded)
    (amount : Amount) :
    symbol.token ≠ amount.token := by
  intro same
  have begins := head_of_mem_coded symbol member
  rw [same, head_token_amount] at begins
  exact absurd begins (by decide)

/-- Codes are told apart by their tokens. -/
theorem token_injective_of_mem_coded :
    ∀ left ∈ coded, ∀ right ∈ coded, left.token = right.token → left = right := by
  decide

/-- No two pure symbols have one token. -/
theorem token_injective
    {left right : PureSymbol}
    (same : left.token = right.token) :
    left = right := by
  rcases left.mem_coded_or_generic with leftCoded | ⟨leftAmount, rfl⟩
  · rcases right.mem_coded_or_generic with rightCoded | ⟨rightAmount, rfl⟩
    · exact token_injective_of_mem_coded left leftCoded right rightCoded same
    · exact absurd same (token_ne_of_mem_coded leftCoded rightAmount)
  · rcases right.mem_coded_or_generic with rightCoded | ⟨rightAmount, rfl⟩
    · exact absurd same.symm (token_ne_of_mem_coded rightCoded leftAmount)
    · rw [Amount.token_injective same]

/-- Tokens of pure symbols are made of letters, digits, signs of numerals and the two glyphs. -/
theorem isAlphanum_or_mem_of_mem_token
    {symbol : PureSymbol}
    {character : Char}
    (member : character ∈ symbol.token) :
    character.isAlphanum = true ∨
      character ∈ Layout.signs ++ [Amount.halfGlyph, Amount.infinityGlyph] := by
  rcases symbol.mem_coded_or_generic with isCoded | ⟨amount, rfl⟩
  · have codes : ∀ symbol ∈ coded, ∀ character ∈ symbol.token, character.isAlphanum = true := by
      simp [coded, Atom.all, Color.all, Variable.all, token, Atom.letter, Color.letter,
        Variable.letter]
    exact .inl (codes symbol isCoded character member)
  · rcases Amount.isDigit_or_mem_of_mem_token member with digit | sign
    · exact .inl (Bool.or_eq_true_iff.2 (.inr digit))
    · exact .inr sign

/-- Tokens of pure symbols hold no delimiters. -/
theorem not_mem_delimiters_of_mem_token
    {symbol : PureSymbol}
    {character : Char}
    (member : character ∈ symbol.token) :
    character ∉ delimiters := by
  intro delimiter
  have others : ∀ delimiter ∈ delimiters,
      ¬(delimiter.isAlphanum = true ∨
        delimiter ∈ Layout.signs ++ [Amount.halfGlyph, Amount.infinityGlyph]) := by
    simp [delimiters, Layout.signs, Amount.halfGlyph, Amount.infinityGlyph]
  exact others character delimiter (isAlphanum_or_mem_of_mem_token member)

theorem token_ne_nil
    (symbol : PureSymbol) :
    symbol.token ≠ [] := by
  intro empty
  rcases symbol.mem_coded_or_generic with isCoded | ⟨amount, rfl⟩
  · have begins := head_of_mem_coded symbol isCoded
    rw [empty] at begins
    exact absurd begins (by decide)
  · have begins := head_token_amount amount
    rw [show amount.token = [] from empty] at begins
    exact absurd begins (by decide)

/-- A pure symbol is legible when it is not generic or its amount is legible. -/
def IsLegible : PureSymbol → Prop
  | .generic amount => amount.IsLegible
  | _ => True

instance : DecidablePred IsLegible
  | .atom _ | .half _ | .var _ => inferInstanceAs (Decidable True)
  | .generic amount => inferInstanceAs (Decidable amount.IsLegible)

/-- A legible pure symbol is read back from its token. -/
theorem ofToken_token
    {symbol : PureSymbol}
    (legible : symbol.IsLegible) :
    ofToken symbol.token = .ok symbol := by
  rcases symbol.mem_coded_or_generic with isCoded | ⟨amount, rfl⟩
  · have codes : ∀ symbol ∈ coded, ofToken symbol.token = .ok symbol := by
      decide +kernel
    exact codes symbol isCoded
  · have noCode : (coded.find? fun symbol => symbol.token == amount.token) = none := by
      rw [List.find?_eq_none]
      intro symbol isCoded same
      exact token_ne_of_mem_coded isCoded amount (eq_of_beq same)
    have shape : (generic amount).token = amount.token := rfl
    rw [shape, ofToken, noCode]
    dsimp only
    rw [Amount.ofToken_token legible]

/-- Legible pure symbols are read back from their tokens one after another. -/
theorem pureSymbolsOf_tokens
    {symbols : List PureSymbol}
    (legible : ∀ symbol ∈ symbols, symbol.IsLegible) :
    pureSymbolsOf (symbols.map token) = .ok symbols := by
  induction symbols with
  | nil =>
      rfl
  | cons symbol rest inductionHypothesis =>
      rw [List.map_cons, pureSymbolsOf, ofToken_token (legible symbol (.head rest))]
      dsimp only
      rw [inductionHypothesis fun other member => legible other (.tail symbol member)]

end PureSymbol

/-- Splitting at slashes is splitting at a separator. -/
theorem splitAtSlashes_eq_splitOn
    (text : List Char) :
    splitAtSlashes text = text.splitOn '/' := by
  induction text with
  | nil =>
      rfl
  | cons character rest inductionHypothesis =>
      have cut : (character :: rest).splitOn '/' =
          if character = '/' then [] :: rest.splitOn '/'
          else (rest.splitOn '/').modifyHead (character :: ·) := by
        rw [List.splitOn, List.splitOnP_cons_eq_if_modifyHead]
        simp only [beq_iff_eq]
        rfl
      rw [splitAtSlashes, inductionHypothesis, cut]
      cases shape : rest.splitOn '/' with
      | nil => exact absurd shape (List.splitOnP_ne_nil _ _)
      | cons part parts => rfl

theorem joinTokens_cons_cons
    (first second : PureSymbol)
    (rest : List PureSymbol) :
    joinTokens (first :: second :: rest) = first.token ++ '/' :: joinTokens (second :: rest) := by
  unfold joinTokens
  rw [List.map_cons, List.map_cons, List.intercalate_cons_cons, List.append_assoc,
    List.singleton_append]

theorem joinTokens_ne_nil
    (first : PureSymbol)
    (rest : List PureSymbol) :
    joinTokens (first :: rest) ≠ [] := by
  cases rest with
  | nil =>
      rw [joinTokens, List.map_singleton, List.intercalate_singleton]
      exact first.token_ne_nil
  | cons second others =>
      rw [joinTokens_cons_cons]
      exact List.append_ne_nil_of_left_ne_nil first.token_ne_nil _

/-- Joined tokens are split into what was joined. -/
theorem splitAtSlashes_joinTokens
    {options : List PureSymbol}
    (some : options ≠ []) :
    splitAtSlashes (joinTokens options) = options.map PureSymbol.token := by
  rw [splitAtSlashes_eq_splitOn]
  apply List.splitOn_intercalate
  · intro token member slash
    obtain ⟨option, -, rfl⟩ := List.mem_map.1 member
    exact PureSymbol.not_mem_delimiters_of_mem_token slash (by decide)
  · rwa [ne_eq, List.map_eq_nil_iff]

/-- Two or more joined tokens have a slash and more than two characters. -/
theorem slash_mem_joinTokens
    (first second : PureSymbol)
    (rest : List PureSymbol) :
    2 < (joinTokens (first :: second :: rest)).length ∧
      '/' ∈ joinTokens (first :: second :: rest) := by
  have firstLength := List.length_pos_iff.2 first.token_ne_nil
  have restLength := List.length_pos_iff.2 (joinTokens_ne_nil second rest)
  rw [joinTokens_cons_cons]
  constructor
  · rw [List.length_append, List.length_cons]
    omega
  · exact List.mem_append_right _ (.head _)

/-- Joined tokens hold the characters of what was joined and slashes. -/
theorem eq_slash_or_mem_token_of_mem_joinTokens
    {options : List PureSymbol}
    {character : Char}
    (member : character ∈ joinTokens options) :
    character = '/' ∨ ∃ option ∈ options, character ∈ option.token := by
  induction options with
  | nil =>
      exact absurd member List.not_mem_nil
  | cons first rest inductionHypothesis =>
      cases rest with
      | nil =>
          rw [joinTokens, List.map_singleton, List.intercalate_singleton] at member
          exact .inr ⟨first, .head _, member⟩
      | cons second others =>
          rw [joinTokens_cons_cons, List.mem_append, List.mem_cons] at member
          rcases member with inFirst | slash | inOthers
          · exact .inr ⟨first, .head _, inFirst⟩
          · exact .inl slash
          · rcases inductionHypothesis inOthers with slash | ⟨option, isOption, inOption⟩
            · exact .inl slash
            · exact .inr ⟨option, .tail first isOption, inOption⟩

namespace Hybrid

theorem options_ne_nil
    (hybrid : Hybrid) :
    hybrid.options ≠ [] :=
  List.ne_nil_of_length_pos (Nat.lt_of_lt_of_le Nat.zero_lt_two hybrid.several)

/-- A hybrid token has a slash and more than two characters. -/
theorem slash_mem_token
    (hybrid : Hybrid) :
    2 < hybrid.token.length ∧ '/' ∈ hybrid.token := by
  obtain ⟨options, laidOut, several⟩ := hybrid
  match options, several with
  | first :: second :: rest, _ => exact slash_mem_joinTokens first second rest

/-- No two hybrids have one token. -/
theorem token_injective
    {left right : Hybrid}
    (same : left.token = right.token) :
    left = right := by
  have tokens : left.options.map PureSymbol.token = right.options.map PureSymbol.token := by
    rw [← splitAtSlashes_joinTokens left.options_ne_nil,
      ← splitAtSlashes_joinTokens right.options_ne_nil]
    exact congrArg splitAtSlashes same
  have options : left.options = right.options :=
    List.map_injective_iff.2 (fun _ _ => PureSymbol.token_injective) tokens
  cases left
  cases right
  obtain rfl := options
  rfl

end Hybrid

namespace Symbol

theorem single_token_ne
    (option : PureSymbol)
    (hybrid : Hybrid) :
    option.token ≠ hybrid.token := by
  intro same
  have slash : '/' ∈ option.token := same ▸ hybrid.slash_mem_token.2
  exact PureSymbol.not_mem_delimiters_of_mem_token slash (by decide)

/-- No two symbols have one token. -/
theorem token_injective
    {left right : Symbol}
    (same : left.token = right.token) :
    left = right := by
  cases left with
  | single leftSymbol =>
      cases right with
      | single rightSymbol => rw [PureSymbol.token_injective same]
      | hybrid rightOptions => exact absurd same (single_token_ne leftSymbol rightOptions)
  | hybrid leftOptions =>
      cases right with
      | single rightSymbol => exact absurd same.symm (single_token_ne rightSymbol leftOptions)
      | hybrid rightOptions => rw [Hybrid.token_injective same]

theorem token_ne_nil
    (symbol : Symbol) :
    symbol.token ≠ [] := by
  cases symbol with
  | single option => exact option.token_ne_nil
  | hybrid options => exact List.ne_nil_of_mem options.slash_mem_token.2

/-- Tokens hold no braces. -/
theorem brace_not_mem_token
    {symbol : Symbol}
    {character : Char}
    (member : character ∈ symbol.token) :
    character ≠ '{' ∧ character ≠ '}' := by
  have notBraces (option : PureSymbol) (inOption : character ∈ option.token) :
      character ≠ '{' ∧ character ≠ '}' := by
    have notDelimiter := PureSymbol.not_mem_delimiters_of_mem_token inOption
    constructor
    · rintro rfl
      exact notDelimiter (by decide)
    · rintro rfl
      exact notDelimiter (by decide)
  cases symbol with
  | single option =>
      exact notBraces option member
  | hybrid choice =>
      rcases eq_slash_or_mem_token_of_mem_joinTokens member with rfl | ⟨option, -, inOption⟩
      · decide
      · exact notBraces option inOption

end Symbol

end ManaCost
