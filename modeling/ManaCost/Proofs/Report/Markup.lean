import Mathlib
import ManaCost.Cost.Basic
import ManaCost.Proofs.Symbol.Token
import ManaCost.Report.PlainConsole

namespace ManaCost.Report

/-!
# What styled text spells

`Spells` says of styled text what is read in it, by the way it is put together and without looking
for tags.  The main statement is `visible_of_spells`, by which nothing else is left of it without its
styles.  The texts of costs are verbatim, `isVerbatim_text`: they spell themselves.
-/

/-- The characters that mean more than themselves in styled text: those that open and escape tags,
and the colons around the names of pictures. -/
def markupChars : List Char :=
  ['[', '\\', ':']

/-- Every character of a text means itself in styled text. -/
def IsVerbatim
    (text : String) :
    Prop :=
  ∀ character ∈ text.toList, character ∉ markupChars

/-- Words of small letters, which name a style. -/
def IsStyle
    (style : String) :
    Prop :=
  style.toList.head?.any Char.isLower = true ∧
    ∀ character ∈ style.toList, character.isLower = true ∨ character = ' '

/-- Styled text is put together of verbatim texts, some of them between the tags of a style. -/
inductive Spells : String → String → Prop where
  | verbatim
      {text : String}
      (isVerbatim : IsVerbatim text) :
      Spells text text
  | tagged
      {style markup text : String}
      (isStyle : IsStyle style)
      (inside : Spells markup text) :
      Spells ("[" ++ style ++ "]" ++ markup ++ "[/" ++ style ++ "]") text
  | append
      {markup text otherMarkup otherText : String}
      (first : Spells markup text)
      (second : Spells otherMarkup otherText) :
      Spells (markup ++ otherMarkup) (text ++ otherText)

/-! ## Costs -/

theorem not_mem_markupChars_of_mem_token
    {symbol : PureSymbol}
    {character : Char}
    (member : character ∈ symbol.token) :
    character ∉ markupChars := by
  intro special
  have others : ∀ special ∈ markupChars,
      ¬(special.isAlphanum = true ∨
        special ∈ Layout.signs ++ [Amount.halfGlyph, Amount.infinityGlyph]) := by
    simp [markupChars, Layout.signs, Amount.halfGlyph, Amount.infinityGlyph]
  exact others character special (PureSymbol.isAlphanum_or_mem_of_mem_token member)

/-- Whatever a cost holds, its text means itself in styled text. -/
theorem isVerbatim_text
    (cost : Cost) :
    IsVerbatim cost.text := by
  have inBraces {token : List Char} (inside : ∀ character ∈ token, character ∉ markupChars) :
      ∀ character ∈ braced token, character ∉ markupChars := by
    intro character member
    rw [braced, List.cons_append, List.mem_cons, List.mem_append, List.mem_singleton] at member
    rcases member with rfl | inToken | rfl
    · decide
    · exact inside character inToken
    · decide
  rw [IsVerbatim, Cost.text, String.toList_ofList, Cost.written]
  split
  · exact inBraces (by simp)
  · simp only [List.forall_mem_flatMap]
    intro symbol _
    refine inBraces fun character member => ?_
    cases symbol with
    | single option => exact not_mem_markupChars_of_mem_token member
    | hybrid choice =>
        rcases eq_slash_or_mem_token_of_mem_joinTokens member with rfl | ⟨option, -, inOption⟩
        · decide
        · exact not_mem_markupChars_of_mem_token inOption

/-! ## Tags -/

theorem closes_append
    {name : List Char}
    (noOpening : '[' ∉ name)
    (rest : List Char) :
    closes (name ++ ']' :: rest) = true := by
  induction name with
  | nil => rfl
  | cons first others inductionHypothesis =>
      obtain ⟨notFirst, notOthers⟩ := not_or.1 (mt List.mem_cons.2 noOpening)
      simp [closes, inductionHypothesis notOthers, Ne.symm notFirst]

theorem visibleFrom_inTag
    {name : List Char}
    (noClosing : ']' ∉ name)
    (rest : List Char) :
    visibleFrom 0 true (name ++ ']' :: rest) = visibleFrom 0 false rest := by
  induction name with
  | nil => rfl
  | cons first others inductionHypothesis =>
      obtain ⟨notFirst, notOthers⟩ := not_or.1 (mt List.mem_cons.2 noClosing)
      have inside : (first != ']') = true := bne_iff_ne.2 (Ne.symm notFirst)
      rw [List.cons_append, visibleFrom, if_pos rfl, inside]
      exact inductionHypothesis notOthers

/-- Nothing of a tag is seen. -/
theorem visibleFrom_tag
    {first : Char}
    {others : List Char}
    (starts : startsTag first = true)
    (noBrackets : '[' ∉ others ∧ ']' ∉ first :: others)
    (rest : List Char) :
    visibleFrom 0 false ('[' :: first :: (others ++ ']' :: rest)) = visibleFrom 0 false rest := by
  have opens : opensTag (first :: (others ++ ']' :: rest)) = true := by
    rw [opensTag, starts, closes_append noBrackets.1, Bool.and_self]
  have inTag := visibleFrom_inTag noBrackets.2 rest
  rw [List.cons_append] at inTag
  simp [visibleFrom.eq_2 0 false, opens, inTag, backslashes]

/-- A verbatim text is seen as it is. -/
theorem visibleFrom_verbatim
    {text : List Char}
    (isVerbatim : ∀ character ∈ text, character ∉ markupChars)
    (rest : List Char) :
    visibleFrom 0 false (text ++ rest) = text ++ visibleFrom 0 false rest := by
  induction text with
  | nil => rfl
  | cons first others inductionHypothesis =>
      obtain ⟨isFirst, areOthers⟩ := List.forall_mem_cons.1 isVerbatim
      simp only [markupChars, List.mem_cons, not_or] at isFirst
      simp [visibleFrom, isFirst.1, isFirst.2.1, inductionHypothesis areOthers, backslashes]

/-- The name of a style begins a tag and has no brackets. -/
theorem IsStyle.exists_cons
    {style : String}
    (isStyle : IsStyle style) :
    ∃ first others, style.toList = first :: others ∧ first.isLower = true ∧
      '[' ∉ first :: others ∧ ']' ∉ first :: others := by
  obtain ⟨begins, words⟩ := isStyle
  cases shape : style.toList with
  | nil => rw [shape] at begins; cases begins
  | cons first others =>
      rw [shape] at begins words
      refine ⟨first, others, rfl, begins, fun member => ?_, fun member => ?_⟩
      · exact absurd (words _ member) (by decide)
      · exact absurd (words _ member) (by decide)

/-- Behind styled text that spells a text, the text is seen and then what follows. -/
theorem visibleFrom_of_spells
    {markup text : String}
    (spells : Spells markup text)
    (rest : List Char) :
    visibleFrom 0 false (markup.toList ++ rest) = text.toList ++ visibleFrom 0 false rest := by
  induction spells generalizing rest with
  | verbatim isVerbatim => exact visibleFrom_verbatim isVerbatim rest
  | @tagged style markup text isStyle _ inductionHypothesis =>
      obtain ⟨first, others, shape, lower, noOpening, noClosing⟩ := isStyle.exists_cons
      have starts : startsTag first = true := by simp [startsTag, lower]
      have opens := visibleFrom_tag starts
        ⟨fun member => noOpening (.tail first member), noClosing⟩
        (markup.toList ++ '[' :: '/' :: first :: (others ++ ']' :: rest))
      have closes := @visibleFrom_tag '/' (first :: others) rfl
        ⟨noOpening, fun member => noClosing ((List.mem_cons.1 member).resolve_left (by decide))⟩
        rest
      rw [List.cons_append] at closes
      have shapes : ("[" ++ style ++ "]" ++ markup ++ "[/" ++ style ++ "]").toList ++ rest =
          '[' :: first :: (others ++ ']' ::
            (markup.toList ++ '[' :: '/' :: first :: (others ++ ']' :: rest))) := by
        simp [shape]
      rw [shapes, opens, inductionHypothesis, closes]
  | append _ _ firstSeen secondSeen =>
      rw [String.toList_append, List.append_assoc, firstSeen, secondSeen, String.toList_append,
        List.append_assoc]

/-- Styled text without its styles is what it spells. -/
theorem visible_of_spells
    {markup text : String}
    (spells : Spells markup text) :
    visible markup = text := by
  have seen := visibleFrom_of_spells spells []
  rw [List.append_nil] at seen
  simp [visible, seen, visibleFrom, backslashes]

/-- The plain console prints what styled text spells. -/
theorem print?_plain_of_spells
    {markup text : String}
    (spells : Spells markup text) :
    Console.plain.print? (.styled markup) = some (text ++ "\n") := by
  rw [← visible_of_spells spells]
  rfl

end ManaCost.Report
