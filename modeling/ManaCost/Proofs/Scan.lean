import Mathlib
import ManaCost.Proofs.Text.Groups
import ManaCost.Scan

namespace ManaCost

/-!
# Scans of joined texts

A scan that opens a parenthesis or a brace looks ahead for its end only, so that brackets of the
other kind mean nothing in between.  A text in which every such end is found is closed, and a scan
forgets it.  The main statement is `symbolsIn_composes`: the closed texts are those that add the same
symbols in front of any text.
-/

/-- Whatever a scan opens in a text is closed in it. -/
inductive IsClosed : List Char → Prop
  | nil : IsClosed []
  | plain
      {character : Char}
      {rest : List Char}
      (notAside : character ≠ '(')
      (notSpan : character ≠ '{')
      (restClosed : IsClosed rest) :
      IsClosed (character :: rest)
  | aside
      {reminder rest : List Char}
      (endless : ')' ∉ reminder)
      (restClosed : IsClosed rest) :
      IsClosed ('(' :: (reminder ++ ')' :: rest))
  | span
      {token rest : List Char}
      (endless : '}' ∉ token)
      (restClosed : IsClosed rest) :
      IsClosed (braced token ++ rest)

/-- A parenthesis or a brace that is never closed, with the text behind it. -/
inductive IsOpen : List Char → Prop
  | aside
      {reminder : List Char}
      (endless : ')' ∉ reminder) :
      IsOpen ('(' :: reminder)
  | span
      {token : List Char}
      (endless : '}' ∉ token) :
      IsOpen ('{' :: token)

/-- In reminder text, a scan goes on to the first closing parenthesis. -/
theorem spansFrom_aside
    {reminder : List Char}
    (endless : ')' ∉ reminder)
    (rest : List Char) :
    spansFrom .aside (reminder ++ ')' :: rest) = spansFrom .outside rest := by
  induction reminder with
  | nil =>
      rw [List.nil_append, spansFrom, if_pos rfl]
  | cons character others inductionHypothesis =>
      obtain ⟨notEnd, othersEndless⟩ := List.ne_and_not_mem_of_not_mem_cons endless
      rw [List.cons_append, spansFrom, if_neg (Ne.symm notEnd), inductionHypothesis othersEndless]

/-- Inside braces, a scan goes on to the first closing brace. -/
theorem spansFrom_inside
    {token : List Char}
    (endless : '}' ∉ token)
    (reversed rest : List Char) :
    spansFrom (.inside reversed) (token ++ '}' :: rest) =
      .ofToken (reversed.reverse ++ token) :: spansFrom .outside rest := by
  induction token generalizing reversed with
  | nil =>
      rw [List.nil_append, spansFrom, if_pos rfl, List.append_nil]
  | cons character others inductionHypothesis =>
      obtain ⟨notEnd, othersEndless⟩ := List.ne_and_not_mem_of_not_mem_cons endless
      rw [List.cons_append, spansFrom, if_neg (Ne.symm notEnd), inductionHypothesis othersEndless,
        List.reverse_cons, List.append_assoc, List.singleton_append]

theorem spansFrom_aside_eq_nil
    {reminder : List Char}
    (endless : ')' ∉ reminder) :
    spansFrom .aside reminder = [] := by
  induction reminder with
  | nil =>
      rfl
  | cons character others inductionHypothesis =>
      obtain ⟨notEnd, othersEndless⟩ := List.ne_and_not_mem_of_not_mem_cons endless
      rw [spansFrom, if_neg (Ne.symm notEnd), inductionHypothesis othersEndless]

theorem spansFrom_inside_eq_nil
    {token : List Char}
    (endless : '}' ∉ token)
    (reversed : List Char) :
    spansFrom (.inside reversed) token = [] := by
  induction token generalizing reversed with
  | nil =>
      rfl
  | cons character others inductionHypothesis =>
      obtain ⟨notEnd, othersEndless⟩ := List.ne_and_not_mem_of_not_mem_cons endless
      rw [spansFrom, if_neg (Ne.symm notEnd), inductionHypothesis othersEndless]

theorem spans_plain
    {character : Char}
    (notAside : character ≠ '(')
    (notSpan : character ≠ '{')
    (rest : List Char) :
    spans (character :: rest) = spans rest := by
  rw [spans, spansFrom, if_neg notAside, if_neg notSpan, spans]

theorem spans_aside_append
    {reminder : List Char}
    (endless : ')' ∉ reminder)
    (rest : List Char) :
    spans ('(' :: (reminder ++ ')' :: rest)) = spans rest := by
  rw [spans, spansFrom, if_pos rfl, spansFrom_aside endless, spans]

/-- A token in braces is one span before those of the text behind it. -/
theorem spans_braced_append
    {token : List Char}
    (endless : '}' ∉ token)
    (rest : List Char) :
    spans (braced token ++ rest) = .ofToken token :: spans rest := by
  rw [spans, braced_append, spansFrom, if_neg (by decide), if_pos rfl, spansFrom_inside endless]
  rfl

/-- What is never closed ends the scan. -/
theorem IsOpen.spans_eq_nil
    {text : List Char}
    (opened : IsOpen text) :
    spans text = [] := by
  cases opened with
  | aside endless =>
      rw [spans, spansFrom, if_pos rfl, spansFrom_aside_eq_nil endless]
  | span endless =>
      rw [spans, spansFrom, if_neg (by decide), if_pos rfl, spansFrom_inside_eq_nil endless]

/-- A scan begins anew behind a closed text. -/
theorem IsClosed.spans_append
    {text : List Char}
    (closed : IsClosed text)
    (more : List Char) :
    spans (text ++ more) = spans text ++ spans more := by
  induction closed with
  | nil =>
      rfl
  | plain notAside notSpan _ inductionHypothesis =>
      rw [List.cons_append, spans_plain notAside notSpan, spans_plain notAside notSpan,
        inductionHypothesis]
  | aside endless _ inductionHypothesis =>
      rw [List.cons_append, List.append_assoc, List.cons_append, spans_aside_append endless,
        spans_aside_append endless, inductionHypothesis]
  | span endless _ inductionHypothesis =>
      rw [List.append_assoc, spans_braced_append endless, spans_braced_append endless,
        inductionHypothesis, List.cons_append]

theorem IsClosed.symbolsIn_append
    {text : List Char}
    (closed : IsClosed text)
    (more : List Char) :
    symbolsIn (text ++ more) = symbolsIn text ++ symbolsIn more := by
  rw [symbolsIn, closed.spans_append, List.filterMap_append, symbolsIn, symbolsIn]

theorem IsOpen.symbolsIn_eq_nil
    {text : List Char}
    (opened : IsOpen text) :
    symbolsIn text = [] := by
  rw [symbolsIn, opened.spans_eq_nil, List.filterMap_nil]

theorem symbolsIn_braced_append
    {token : List Char}
    (endless : '}' ∉ token)
    (rest : List Char) :
    symbolsIn (braced token ++ rest) =
      (Symbol.read token).toOption.toList ++ symbolsIn rest := by
  rw [symbolsIn, spans_braced_append endless, Span.ofToken]
  cases Symbol.read token <;> rfl

theorem IsClosed.append
    {first second : List Char}
    (firstClosed : IsClosed first)
    (secondClosed : IsClosed second) :
    IsClosed (first ++ second) := by
  induction firstClosed with
  | nil =>
      exact secondClosed
  | plain notAside notSpan _ inductionHypothesis =>
      exact .plain notAside notSpan inductionHypothesis
  | aside endless _ inductionHypothesis =>
      rw [List.cons_append, List.append_assoc, List.cons_append]
      exact .aside endless inductionHypothesis
  | span endless _ inductionHypothesis =>
      rw [List.append_assoc]
      exact .span endless inductionHypothesis

/-- A text begins with something closed, unless what it begins with is never closed. -/
theorem isOpen_or_exists_isClosed
    {text : List Char}
    (some : text ≠ []) :
    IsOpen text ∨ ∃ closed rest, IsClosed closed ∧ closed ≠ [] ∧ text = closed ++ rest := by
  obtain ⟨character, rest, rfl⟩ := List.exists_cons_of_ne_nil some
  by_cases isAside : character = '('
  · subst isAside
    by_cases ended : ')' ∈ rest
    · obtain ⟨reminder, others, rfl, endless⟩ := List.eq_append_cons_of_mem ended
      exact .inr ⟨'(' :: (reminder ++ [')']), others, .aside endless .nil, List.cons_ne_nil _ _,
        by simp⟩
    · exact .inl (.aside ended)
  by_cases isSpan : character = '{'
  · subst isSpan
    by_cases ended : '}' ∈ rest
    · obtain ⟨token, others, rfl, endless⟩ := List.eq_append_cons_of_mem ended
      exact .inr ⟨braced token ++ [], others, .span endless .nil, List.cons_ne_nil _ _,
        by rw [List.append_nil, braced_append]⟩
    · exact .inl (.span ended)
  exact .inr ⟨[character], rest, .plain isAside isSpan .nil, List.cons_ne_nil _ _, rfl⟩

/-- A text is closed, or it is up to the place where the scan of it ends. -/
theorem isClosed_or_exists_isOpen
    (text : List Char) :
    IsClosed text ∨ ∃ closed opened, IsClosed closed ∧ IsOpen opened ∧ text = closed ++ opened := by
  -- What stands behind a closed piece is no tail of the text, so the induction is on length.
  induction text using (measure List.length).wf.induction with
  | _ text inductionHypothesis =>
    by_cases none : text = []
    · exact .inl (none ▸ .nil)
    rcases isOpen_or_exists_isClosed none with isOpen | ⟨piece, rest, pieceClosed, some, rfl⟩
    · exact .inr ⟨[], text, .nil, isOpen, rfl⟩
    · have shorter : rest.length < (piece ++ rest).length := by
        rw [List.length_append]
        exact Nat.lt_add_of_pos_left (List.length_pos_iff.2 some)
      rcases inductionHypothesis rest shorter with
        restClosed | ⟨closed, opened, restClosed, isOpen, rfl⟩
      · exact .inl (pieceClosed.append restClosed)
      · exact .inr ⟨piece ++ closed, opened, pieceClosed.append restClosed, isOpen,
          (List.append_assoc ..).symm⟩

/-- Some text does not add its own symbols behind what is never closed. -/
theorem IsOpen.exists_symbolsIn_append_ne
    {text : List Char}
    (opened : IsOpen text) :
    ∃ more, symbolsIn (text ++ more) ≠ symbolsIn more := by
  have shown : symbolsIn (braced ['W']) ≠ [] := by
    decide +kernel
  cases opened with
  | @aside reminder endless =>
      -- The parenthesis hides a symbol that is there otherwise.
      have opened : IsOpen ('(' :: (reminder ++ braced ['W'])) :=
        .aside fun member => (List.mem_append.1 member).elim endless (by decide)
      refine ⟨braced ['W'], ?_⟩
      rw [List.cons_append, opened.symbolsIn_eq_nil]
      exact Ne.symm shown
  | @span token endless =>
      -- The brace takes in a parenthesis, which hides a symbol otherwise.
      have endless : '}' ∉ token ++ ['('] :=
        fun member => (List.mem_append.1 member).elim endless (by decide)
      have taken : '{' :: token ++ '(' :: '}' :: braced ['W'] =
          braced (token ++ ['(']) ++ braced ['W'] := by
        simp [braced]
      have hidden : symbolsIn ('(' :: '}' :: braced ['W']) = [] := by
        decide +kernel
      refine ⟨'(' :: '}' :: braced ['W'], ?_⟩
      rw [taken, symbolsIn_braced_append endless, hidden]
      exact List.append_ne_nil_of_right_ne_nil _ shown

/-- The closed texts are those behind which a scan begins anew. -/
theorem isClosed_iff_symbolsIn_append
    {text : List Char} :
    IsClosed text ↔ ∀ more, symbolsIn (text ++ more) = symbolsIn text ++ symbolsIn more := by
  constructor
  · exact IsClosed.symbolsIn_append
  · intro composes
    rcases isClosed_or_exists_isOpen text with isClosed | ⟨closed, opened, isClosed, isOpen, rfl⟩
    · exact isClosed
    · obtain ⟨more, differ⟩ := isOpen.exists_symbolsIn_append_ne
      have both := composes more
      rw [List.append_assoc, isClosed.symbolsIn_append, isClosed.symbolsIn_append,
        isOpen.symbolsIn_eq_nil, List.append_nil] at both
      exact absurd (List.append_cancel_left both) differ

/--
A scan of two texts is the scan of each one behind the other for exactly the closed first texts.
Reminder text is closed and holds no symbol, a span is closed and holds the symbol that its token
writes, if any, and what is never closed holds none.
-/
theorem symbolsIn_composes :
    (∀ first, IsClosed first ↔
        ∀ second, symbolsIn (first ++ second) = symbolsIn first ++ symbolsIn second) ∧
      (∀ reminder, ')' ∉ reminder →
        IsClosed ('(' :: (reminder ++ [')'])) ∧ symbolsIn ('(' :: (reminder ++ [')'])) = []) ∧
      (∀ token, '}' ∉ token →
        IsClosed (braced token) ∧
          symbolsIn (braced token) = (Symbol.read token).toOption.toList) ∧
      (∀ reminder, ')' ∉ reminder → symbolsIn ('(' :: reminder) = []) ∧
      ∀ token, '}' ∉ token → symbolsIn ('{' :: token) = [] := by
  refine ⟨fun first => isClosed_iff_symbolsIn_append, ?_, ?_, ?_, ?_⟩
  · intro reminder endless
    refine ⟨.aside endless .nil, ?_⟩
    rw [symbolsIn, spans_aside_append endless]
    rfl
  · intro token endless
    have alone := symbolsIn_braced_append endless []
    have closed := IsClosed.span endless .nil
    rw [List.append_nil] at alone closed
    rw [alone]
    exact ⟨closed, List.append_nil _⟩
  · intro reminder endless
    exact (IsOpen.aside endless).symbolsIn_eq_nil
  · intro token endless
    exact (IsOpen.span endless).symbolsIn_eq_nil

/-- The text `{T}:({W}{){(}{2/W}`. -/
def crossedBrackets : List Char :=
  braced ['T'] ++ ':' :: '(' :: (braced ['W'] ++ ['{'] ++ ')' ::
    (braced ['('] ++ (braced ['2', '/', 'W'] ++ [])))

/-- A brace is not looked for in reminder text, nor is a parenthesis in a span. -/
theorem symbolsIn_composes_crossedBrackets :
    IsClosed crossedBrackets ∧
      (symbolsIn (crossedBrackets ++ "{½})({R}".toList)).map Symbol.text =
        ["{T}", "{2/W}"] ++ ["{½}"] ∧
      ')' ∉ braced ['W'] ++ ['{'] ∧
      symbolsIn ('(' :: (braced ['W'] ++ ['{'] ++ [')'])) = [] ∧
      '}' ∉ ['{', 'W'] ∧
      symbolsIn (braced ['{', 'W']) = [] ∧
      '}' ∉ ['H', 'W'] ∧
      symbolsIn (braced ['H', 'W']) = [.half .white] ∧
      ')' ∉ braced ['R'] ∧
      symbolsIn ('(' :: braced ['R']) = [] ∧
      '}' ∉ ['(', 'W', ')'] ∧
      symbolsIn ['{', '(', 'W', ')'] = [] := by
  obtain ⟨composes, reminders, tokens, openReminders, openTokens⟩ := symbolsIn_composes
  have firstReminder : ')' ∉ braced ['W'] ++ ['{'] := by decide
  have skipped : '}' ∉ ['{', 'W'] := by decide
  have found : '}' ∉ ['H', 'W'] := by decide
  have lastReminder : ')' ∉ braced ['R'] := by decide
  have lastToken : '}' ∉ ['(', 'W', ')'] := by decide
  have isClosed : IsClosed crossedBrackets :=
    .span (by decide) (.plain (by decide) (by decide)
      (.aside firstReminder (.span (by decide) (.span (by decide) .nil))))
  have before : (symbolsIn crossedBrackets).map Symbol.text = ["{T}", "{2/W}"] := by
    decide +kernel
  have behind : (symbolsIn "{½})({R}".toList).map Symbol.text = ["{½}"] := by
    decide +kernel
  have joined := (composes crossedBrackets).1 isClosed "{½})({R}".toList
  refine ⟨isClosed, ?_, firstReminder, (reminders _ firstReminder).2, skipped, ?_, found, ?_,
    lastReminder, openReminders _ lastReminder, lastToken, openTokens _ lastToken⟩
  · rw [joined, List.map_append, before, behind]
  · exact (tokens _ skipped).2.trans (by decide +kernel)
  · exact (tokens _ found).2.trans (by decide +kernel)

end ManaCost
