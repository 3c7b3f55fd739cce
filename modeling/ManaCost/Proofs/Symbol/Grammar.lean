import Mathlib
import ManaCost.Proofs.Amount.Grammar
import ManaCost.Proofs.Symbol.Legible

namespace ManaCost

/-!
# The grammar of symbols

Tokens are described without their reader: a pure token names one symbol, and a longer token with a
slash is cut into pure tokens that name the options of a hybrid.  A text may put its token between
braces.  The main statement is `Symbol.ofText_accepts_grammar`: the reader accepts the texts of this
grammar, and it refuses any other text for a number below zero, if such a number is the first of its
parts that is no pure token, or as a whole.
-/

/-- A pure token and the symbol that it names. -/
inductive Names : List Char → PureSymbol → Prop
  | atom (fixed : Atom) : Names (PureSymbol.atom fixed).token (.atom fixed)
  | half (color : Color) : Names (PureSymbol.half color).token (.half color)
  | var (name : Variable) : Names (PureSymbol.var name).token (.var name)
  | infinity : Names [Amount.infinityGlyph] (.generic .infinite)
  | number
      {token : List Char}
      {negative : Bool}
      {amount : Amount}
      (isTotal : IsTotal token (.of negative amount))
      (notBelow : negative = true → amount = .zero) :
      Names token (.generic amount)

/-- A token and the symbol that it denotes. -/
inductive Denotes : List Char → Symbol → Prop
  | single
      {token : List Char}
      {symbol : PureSymbol}
      (names : Names token symbol) :
      Denotes token (.single symbol)
  | hybrid
      {token : List Char}
      {options : List PureSymbol}
      {hybrid : Hybrid}
      (long : 2 < token.length)
      (slash : '/' ∈ token)
      (names : List.Forall₂ Names (token.splitOn '/') options)
      (several : ∃ one ∈ options, ∃ other ∈ options, one ≠ other)
      (same : ∀ option, option ∈ hybrid.options ↔ option ∈ options) :
      Denotes token (.hybrid hybrid)

/-- A text and the token that stands between its braces, or the whole text without any. -/
inductive Wraps : List Char → List Char → Prop
  | braced (token : List Char) : Wraps (braced token) token
  | bare
      {token : List Char}
      (unopened : token.head? ≠ some '{') :
      Wraps token token

/-- The parts of a token that pure symbols are looked for in. -/
def partsOf
    (token : List Char) :
    List (List Char) :=
  if 2 < token.length ∧ '/' ∈ token then token.splitOn '/' else [token]

/-- The first part of a text that is no pure token is a number below zero. -/
def FirstIsNegative
    (text : List Char)
    (amount : Amount) :
    Prop :=
  ∃ token before part after,
    Wraps text token ∧ partsOf token = before ++ part :: after ∧
      (∀ earlier ∈ before, ∃ symbol, Names earlier symbol) ∧
      amount ≠ .zero ∧ IsTotal part (.of true amount)

/-- The fault of a text that holds no symbol. -/
inductive Unreadable
    (text : String) :
    Fault → Prop
  | negative
      {amount : Amount}
      (first : FirstIsNegative text.toList amount) :
      Unreadable text (.negativeGeneric (.of true amount))
  | malformed
      (noSymbol : ∀ token symbol, Wraps text.toList token → ¬Denotes token symbol)
      (notNegative : ∀ amount, ¬FirstIsNegative text.toList amount) :
      Unreadable text (.malformedSymbol text)

namespace IsTotal

variable {token : List Char} {total : Signed}

theorem ne_nil
    (isTotal : IsTotal token total) :
    token ≠ [] := by
  cases isTotal with
  | number isNumber => exact isNumber.ne_nil
  | numberAndHalf isNumber => exact List.append_ne_nil_of_left_ne_nil isNumber.ne_nil _
  | half => exact List.cons_ne_nil _ _

theorem slash_not_mem
    (isTotal : IsTotal token total) :
    '/' ∉ token := by
  cases isTotal with
  | number isNumber => exact isNumber.not_mem (by decide)
  | numberAndHalf isNumber =>
      rw [List.mem_append, not_or]
      exact ⟨isNumber.not_mem (by decide), by decide⟩
  | half => decide

end IsTotal

namespace PureSymbol

/-- Codes of letters are no numbers. -/
theorem amount_ofToken_of_mem_coded :
    ∀ symbol ∈ coded, Amount.ofToken symbol.token = .error .malformed := by
  decide +kernel

/-- Numbers are not taken for codes. -/
theorem find?_coded_of_isTotal
    {token : List Char}
    {total : Signed}
    (isTotal : IsTotal token total) :
    (coded.find? fun symbol => symbol.token == token) = none := by
  rw [List.find?_eq_none]
  intro symbol isCoded same
  have malformed := amount_ofToken_of_mem_coded symbol isCoded
  obtain ⟨negative, amount, rfl⟩ := Amount.exists_of_isTotal isTotal
  rw [eq_of_beq same, Amount.ofToken_of_isTotal isTotal, Amount.ofSigned_of] at malformed
  split at malformed
  · exact absurd malformed (by simp)
  · exact absurd malformed (by simp)

/-- A symbol is read from the tokens that name it. -/
theorem ofToken_eq_ok_iff
    {token : List Char}
    {symbol : PureSymbol} :
    ofToken token = .ok symbol ↔ Names token symbol := by
  constructor
  · intro isRead
    unfold ofToken at isRead
    split at isRead
    · rename_i code found
      obtain rfl := Except.ok.inj isRead
      have isCoded := List.mem_of_find?_eq_some found
      have isToken : code.token = token := by
        simpa using List.find?_some found
      rw [← isToken]
      cases code with
      | atom fixed => exact .atom fixed
      | half color => exact .half color
      | var name => exact .var name
      | generic amount => exact absurd isCoded (by simp [coded])
    · split at isRead
      · rename_i amount isAmount
        obtain rfl := Except.ok.inj isRead
        rcases Amount.ofToken_eq_ok_iff.1 isAmount with ⟨rfl, rfl⟩ | ⟨negative, isTotal, notBelow⟩
        · exact .infinity
        · exact .number isTotal notBelow
      · exact absurd isRead (by simp)
  · intro names
    cases names with
    | atom fixed => exact ofToken_token trivial
    | half color => exact ofToken_token trivial
    | var name => exact ofToken_token trivial
    | infinity => decide +kernel
    | number isTotal notBelow =>
        rw [ofToken, find?_coded_of_isTotal isTotal]
        dsimp only
        rw [Amount.ofToken_eq_ok_iff.2 (.inr ⟨_, isTotal, notBelow⟩)]

/-- A token is refused for its sign when it is a number below zero. -/
theorem ofToken_eq_negative_iff
    {token : List Char}
    {value : Signed} :
    ofToken token = .error (.negative value) ↔
      ∃ amount, value = .of true amount ∧ amount ≠ .zero ∧ IsTotal token value := by
  rw [← Amount.ofToken_eq_negative_iff]
  constructor
  · intro refused
    unfold ofToken at refused
    split at refused
    · exact absurd refused (by simp)
    · split at refused
      · exact absurd refused (by simp)
      · rename_i fault isFault
        rw [isFault, Except.error.inj refused]
  · intro refused
    obtain ⟨_, _, _, isTotal⟩ := Amount.ofToken_eq_negative_iff.1 refused
    rw [ofToken, find?_coded_of_isTotal isTotal]
    dsimp only
    rw [refused]

end PureSymbol

namespace Names

variable {token : List Char} {symbol : PureSymbol}

theorem ne_nil
    (names : Names token symbol) :
    token ≠ [] := by
  cases names with
  | atom fixed => exact PureSymbol.token_ne_nil _
  | half color => exact PureSymbol.token_ne_nil _
  | var name => exact PureSymbol.token_ne_nil _
  | infinity => exact List.cons_ne_nil _ _
  | number isTotal notBelow => exact isTotal.ne_nil

theorem slash_not_mem
    (names : Names token symbol) :
    '/' ∉ token := by
  have codes (code : PureSymbol) : '/' ∉ code.token :=
    fun member => PureSymbol.not_mem_delimiters_of_mem_token member (.head _)
  cases names with
  | atom fixed => exact codes _
  | half color => exact codes _
  | var name => exact codes _
  | infinity => decide
  | number isTotal notBelow => exact isTotal.slash_not_mem

end Names

/-- The symbols that are read from parts are those that the parts name. -/
theorem pureSymbolsOf_eq_ok_iff
    {parts : List (List Char)}
    {symbols : List PureSymbol} :
    pureSymbolsOf parts = .ok symbols ↔ List.Forall₂ Names parts symbols := by
  induction parts generalizing symbols with
  | nil =>
      rw [pureSymbolsOf, List.forall₂_nil_left_iff, Except.ok.injEq, eq_comm]
  | cons part others inductionHypothesis =>
      rw [pureSymbolsOf, List.forall₂_cons_left_iff]
      simp only [← inductionHypothesis, ← PureSymbol.ofToken_eq_ok_iff]
      cases PureSymbol.ofToken part with
      | error fault => simp
      | ok symbol =>
          cases pureSymbolsOf others with
          | error fault => simp
          | ok rest => simp [eq_comm]

/-- Parts are refused for the first of them that names no symbol. -/
theorem pureSymbolsOf_eq_error_iff
    {parts : List (List Char)}
    {fault : TokenFault} :
    pureSymbolsOf parts = .error fault ↔
      ∃ before part after, parts = before ++ part :: after ∧
        (∀ earlier ∈ before, ∃ symbol, Names earlier symbol) ∧
          PureSymbol.ofToken part = .error fault := by
  induction parts with
  | nil =>
      simp [pureSymbolsOf]
  | cons part others inductionHypothesis =>
      rw [pureSymbolsOf]
      constructor
      · intro refused
        split at refused
        · rename_i partFault isFault
          obtain rfl := Except.error.inj refused
          exact ⟨[], part, others, rfl, by simp, isFault⟩
        · rename_i symbol isRead
          split at refused
          · rename_i othersFault othersRefused
            obtain rfl := Except.error.inj refused
            obtain ⟨before, first, after, rfl, accepted, isFault⟩ :=
              inductionHypothesis.1 othersRefused
            have partNames : ∃ symbol, Names part symbol :=
              ⟨symbol, PureSymbol.ofToken_eq_ok_iff.1 isRead⟩
            exact ⟨part :: before, first, after, rfl, List.forall_mem_cons.2 ⟨partNames, accepted⟩,
              isFault⟩
          · exact absurd refused (by simp)
      · rintro ⟨before, first, after, shape, accepted, isFault⟩
        cases before with
        | nil =>
            obtain ⟨rfl, rfl⟩ := List.cons.inj shape
            rw [isFault]
        | cons earlier rest =>
            obtain ⟨rfl, rfl⟩ := List.cons.inj shape
            obtain ⟨⟨symbol, names⟩, restAccepted⟩ := List.forall_mem_cons.1 accepted
            rw [PureSymbol.ofToken_eq_ok_iff.2 names]
            dsimp only
            rw [inductionHypothesis.2 ⟨rest, first, after, rfl, restAccepted, isFault⟩]

namespace Symbol

/-- A symbol is read from the tokens that denote it. -/
theorem ofToken_eq_ok_iff
    {token : List Char}
    {symbol : Symbol} :
    ofToken token = .ok symbol ↔ Denotes token symbol := by
  constructor
  · intro isRead
    unfold ofToken at isRead
    split at isRead
    · exact absurd isRead (by simp)
    split at isRead
    · rename_i hybridLike
      split at isRead
      · rename_i hybrid isHybrid
        obtain rfl := Except.ok.inj isRead
        unfold Hybrid.ofToken at isHybrid
        split at isHybrid
        · exact absurd isHybrid (by simp)
        · rename_i options named
          split at isHybrid
          · rename_i made isMade
            obtain rfl := Except.ok.inj isHybrid
            obtain ⟨several, same⟩ := Hybrid.ofOptions?_eq_some_iff.1 isMade
            rw [splitAtSlashes_eq_splitOn, pureSymbolsOf_eq_ok_iff] at named
            exact .hybrid hybridLike.1 hybridLike.2 named several same
          · exact absurd isHybrid (by simp)
      · exact absurd isRead (by simp)
    · split at isRead
      · rename_i option isOption
        obtain rfl := Except.ok.inj isRead
        exact .single (PureSymbol.ofToken_eq_ok_iff.1 isOption)
      · exact absurd isRead (by simp)
  · intro denotes
    cases denotes with
    | single names =>
        have notHybridLike : ¬(2 < token.length ∧ '/' ∈ token) :=
          fun hybridLike => names.slash_not_mem hybridLike.2
        rw [ofToken, List.isEmpty_eq_false_iff.2 names.ne_nil, if_neg Bool.false_ne_true,
          if_neg notHybridLike, PureSymbol.ofToken_eq_ok_iff.2 names]
    | hybrid long slash names several same =>
        have notEmpty : token ≠ [] := List.ne_nil_of_mem slash
        rw [ofToken, List.isEmpty_eq_false_iff.2 notEmpty, if_neg Bool.false_ne_true,
          if_pos ⟨long, slash⟩, Hybrid.ofToken, splitAtSlashes_eq_splitOn,
          pureSymbolsOf_eq_ok_iff.2 names]
        dsimp only
        rw [Hybrid.ofOptions?_eq_some_iff.2 ⟨several, same⟩]

/-- A token is refused for the sign of a number when its parts are. -/
theorem ofToken_eq_negative_iff_partsOf
    {token : List Char}
    {value : Signed} :
    ofToken token = .error (.negative value) ↔
      pureSymbolsOf (partsOf token) = .error (.negative value) := by
  unfold ofToken partsOf
  split
  · rename_i empty
    have noParts : pureSymbolsOf [[]] = .error .malformed := by
      decide +kernel
    rw [List.isEmpty_iff.1 empty, if_neg (by decide), noParts]
    simp
  split
  · rw [Hybrid.ofToken, splitAtSlashes_eq_splitOn]
    cases pureSymbolsOf (token.splitOn '/') with
    | error fault => simp
    | ok options =>
        dsimp only
        cases Hybrid.ofOptions? options <;> simp
  · rw [pureSymbolsOf, pureSymbolsOf]
    cases PureSymbol.ofToken token <;> simp

/-- A token stands between the braces of a text or is the text. -/
theorem unbraced?_eq_some_iff
    {text token : List Char} :
    unbraced? text = some token ↔ Wraps text token := by
  constructor
  · intro between
    unfold unbraced? at between
    split at between
    · rename_i rest
      split at between
      · rename_i last
        have shape : '{' :: rest = braced token := by
          rw [← Option.some.inj between, braced, List.cons_append,
            List.dropLast_append_getLast? _ last]
        rw [shape]
        exact .braced token
      · exact absurd between (by simp)
    · rename_i unopened
      obtain rfl := Option.some.inj between
      refine .bare fun opened => ?_
      obtain ⟨rest, shape⟩ := List.head?_eq_some_iff.1 opened
      exact unopened rest shape
  · intro wraps
    cases wraps with
    | braced token => exact unbraced?_braced token
    | bare unopened =>
        cases text with
        | nil => rfl
        | cons character rest =>
            unfold unbraced?
            split
            · rename_i shape
              exact absurd (congrArg some (List.cons.inj shape).1) unopened
            · rfl

/-- A symbol is read from the texts whose token denotes it. -/
theorem read_eq_ok_iff_denotes
    {text : List Char}
    {symbol : Symbol} :
    read text = .ok symbol ↔ ∃ token, Wraps text token ∧ Denotes token symbol := by
  simp only [← unbraced?_eq_some_iff, ← ofToken_eq_ok_iff]
  unfold read
  cases unbraced? text with
  | none => simp
  | some token =>
      dsimp only
      cases isRead : ofToken token <;> simp [isRead]

/-- A text is refused for the sign of a number when the first part that is no pure token is one. -/
theorem read_eq_negative_iff
    {text : List Char}
    {value : Signed} :
    read text = .error (.negativeGeneric value) ↔
      ∃ amount, value = .of true amount ∧ FirstIsNegative text amount := by
  have refused : read text = .error (.negativeGeneric value) ↔
      ∃ token, unbraced? text = some token ∧ ofToken token = .error (.negative value) := by
    unfold read
    cases unbraced? text with
    | none => simp
    | some token =>
        dsimp only
        cases isRead : ofToken token with
        | ok symbol => simp [isRead]
        | error fault => cases fault <;> simp [isRead, TokenFault.within]
  rw [refused]
  simp only [unbraced?_eq_some_iff, ofToken_eq_negative_iff_partsOf, pureSymbolsOf_eq_error_iff,
    PureSymbol.ofToken_eq_negative_iff]
  constructor
  · rintro ⟨token, wraps, before, part, after, shape, accepted, amount, rfl, notZero, isTotal⟩
    exact ⟨amount, rfl, token, before, part, after, wraps, shape, accepted, notZero, isTotal⟩
  · rintro ⟨amount, rfl, token, before, part, after, wraps, shape, accepted, notZero, isTotal⟩
    exact ⟨token, wraps, before, part, after, shape, accepted, amount, rfl, notZero, isTotal⟩

/-- A text that is not refused for the sign of a number is refused as a whole. -/
theorem read_eq_error
    {text : List Char}
    {fault : Fault}
    (refused : read text = .error fault) :
    (∃ value, fault = .negativeGeneric value) ∨ fault = .malformedSymbol (String.ofList text) := by
  unfold read at refused
  split at refused
  · exact .inr (Except.error.inj refused).symm
  · split at refused
    · exact absurd refused (by simp)
    · rename_i tokenFault _
      obtain rfl := Except.error.inj refused
      cases tokenFault with
      | malformed => exact .inr rfl
      | negative value => exact .inl ⟨value, rfl⟩

/-- The fault of a text is the one that the grammar tells. -/
theorem ofText_eq_error_iff
    {text : String}
    {fault : Fault} :
    ofText text = .error fault ↔ Unreadable text fault := by
  constructor
  · intro refused
    rcases read_eq_error refused with ⟨value, rfl⟩ | malformed
    · obtain ⟨amount, rfl, first⟩ := read_eq_negative_iff.1 refused
      exact .negative first
    · rw [String.ofList_toList] at malformed
      subst malformed
      refine .malformed (fun token symbol wraps denotes => ?_) (fun amount first => ?_)
      · have isRead := read_eq_ok_iff_denotes.2 ⟨token, wraps, denotes⟩
        exact absurd (refused.symm.trans isRead) (by simp)
      · have isNegative := read_eq_negative_iff.2 ⟨amount, rfl, first⟩
        exact absurd (refused.symm.trans isNegative) (by simp)
  · intro unreadable
    cases unreadable with
    | negative first => exact read_eq_negative_iff.2 ⟨_, rfl, first⟩
    | malformed noSymbol notNegative =>
        cases isRead : ofText text with
        | ok symbol =>
            obtain ⟨token, wraps, denotes⟩ := read_eq_ok_iff_denotes.1 isRead
            exact absurd denotes (noSymbol token symbol wraps)
        | error fault =>
            rcases read_eq_error isRead with ⟨value, rfl⟩ | rfl
            · obtain ⟨amount, rfl, first⟩ := read_eq_negative_iff.1 isRead
              exact absurd first (notNegative amount)
            · rw [String.ofList_toList]

/--
The symbols that texts are read as are those of the grammar.  A token denotes a symbol when it is a
pure token, or when it is longer than two characters, has a slash and is cut into pure tokens of at
least two different symbols.
-/
theorem ofText_accepts_grammar :
    (∀ text symbol, ofText text = .ok symbol ↔
        ∃ token, Wraps text.toList token ∧ Denotes token symbol) ∧
      (∀ text, (∃ symbol, ofText text = .ok symbol) ↔
        ∃ token, Wraps text.toList token ∧ token ≠ [] ∧
          ((∃ option, Names token option) ∨
            2 < token.length ∧ '/' ∈ token ∧
              ∃ options, List.Forall₂ Names (token.splitOn '/') options ∧
                ∃ one ∈ options, ∃ other ∈ options, one ≠ other)) ∧
      ∀ text fault, ofText text = .error fault ↔ Unreadable text fault := by
  refine ⟨fun text symbol => read_eq_ok_iff_denotes, fun text => ?_, fun text fault => ?_⟩
  · constructor
    · rintro ⟨symbol, isRead⟩
      obtain ⟨token, wraps, denotes⟩ := read_eq_ok_iff_denotes.1 isRead
      refine ⟨token, wraps, ?_⟩
      cases denotes with
      | single names => exact ⟨names.ne_nil, .inl ⟨_, names⟩⟩
      | hybrid long slash names several same =>
          exact ⟨List.ne_nil_of_mem slash, .inr ⟨long, slash, _, names, several⟩⟩
    · rintro ⟨token, wraps, -, ⟨option, names⟩ | ⟨long, slash, options, names, several⟩⟩
      · exact ⟨_, read_eq_ok_iff_denotes.2 ⟨token, wraps, .single names⟩⟩
      · obtain ⟨hybrid, same⟩ := Hybrid.exists_of_several several
        exact ⟨_, read_eq_ok_iff_denotes.2 ⟨token, wraps, .hybrid long slash names several same⟩⟩
  · exact ofText_eq_error_iff

/-- A half is added before the sign is looked at, and behind the first fault nothing is. -/
example :
    ofText "W/-1½/Q/HH" = .error (.negativeGeneric (.of true .half)) ∧
      ofText "-.4½" = .ok (.generic (.ofDecimal 9999999999999998 (-17))) := by
  decide +kernel

end Symbol

end ManaCost
