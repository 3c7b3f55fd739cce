import Mathlib
import ManaCost.Symbol.Basic

namespace ManaCost

/-!
# Texts made of groups

A group is a token without braces between two braces.  Any text is cut in one place: it begins with
closed groups and perhaps an open one, and goes on with a character that neither can be followed by,
or ends.  The main statement is `IsCut.isReach`: up to that place, and no further, a text can be
continued to complete groups.
-/

/-- A token holds no brace. -/
def IsUnbraced
    (token : List Char) :
    Prop :=
  ∀ character ∈ token, character ≠ '{' ∧ character ≠ '}'

/-- Groups of tokens, one after another. -/
def grouped
    (tokens : List (List Char)) :
    List Char :=
  tokens.flatMap braced

/-- A text is made of complete groups, whatever their tokens are. -/
def IsGrouped
    (text : List Char) :
    Prop :=
  ∃ tokens, (∀ token ∈ tokens, IsUnbraced token) ∧ grouped tokens = text

/-- A text can be continued to complete groups. -/
def CanContinue
    (text : List Char) :
    Prop :=
  ∃ more, IsGrouped (text ++ more)

/-- The length of the longest prefix of a text that can be continued to complete groups. -/
def IsReach
    (text : List Char)
    (reach : Nat) :
    Prop :=
  IsGreatest {length | length ≤ text.length ∧ CanContinue (text.take length)} reach

theorem braced_append
    (token rest : List Char) :
    braced token ++ rest = '{' :: (token ++ '}' :: rest) := by
  rw [braced, List.cons_append, List.cons_append, List.append_assoc, List.singleton_append]

theorem grouped_cons
    (token : List Char)
    (rest : List (List Char)) :
    grouped (token :: rest) = braced token ++ grouped rest :=
  List.flatMap_cons

theorem grouped_append
    (first second : List (List Char)) :
    grouped (first ++ second) = grouped first ++ grouped second :=
  List.flatMap_append

theorem IsUnbraced.not_mem_brace
    {token : List Char}
    (unbraced : IsUnbraced token) :
    '}' ∉ token :=
  fun member => (unbraced '}' member).2 rfl

/-- A token ends at the first brace behind it. -/
theorem IsUnbraced.takeWhile_append
    {token : List Char}
    (unbraced : IsUnbraced token)
    {brace : Char}
    (isBrace : brace = '{' ∨ brace = '}')
    (rest : List Char) :
    (token ++ brace :: rest).takeWhile (fun character => character ≠ '{' ∧ character ≠ '}') =
      token := by
  rw [List.takeWhile_append_of_pos fun character member => by simp [unbraced character member]]
  rcases isBrace with rfl | rfl <;> simp

/-- Tokens up to a brace are told by the text that they begin. -/
theorem eq_of_append_brace_eq
    {left right leftRest rightRest : List Char}
    (leftUnbraced : IsUnbraced left)
    (rightUnbraced : IsUnbraced right)
    {leftBrace rightBrace : Char}
    (leftIsBrace : leftBrace = '{' ∨ leftBrace = '}')
    (rightIsBrace : rightBrace = '{' ∨ rightBrace = '}')
    (same : left ++ leftBrace :: leftRest = right ++ rightBrace :: rightRest) :
    left = right ∧ leftBrace = rightBrace ∧ leftRest = rightRest := by
  have tokens : left = right := by
    rw [← leftUnbraced.takeWhile_append leftIsBrace leftRest, same,
      rightUnbraced.takeWhile_append rightIsBrace]
  rw [tokens] at same
  exact ⟨tokens, List.cons.inj (List.append_cancel_left same)⟩

/-- A group ends at its first closing brace. -/
theorem eq_and_eq_of_braced_append_eq
    {left right leftRest rightRest : List Char}
    (leftUnbraced : IsUnbraced left)
    (rightUnbraced : IsUnbraced right)
    (same : braced left ++ leftRest = braced right ++ rightRest) :
    left = right ∧ leftRest = rightRest := by
  have opened : left ++ '}' :: leftRest = right ++ '}' :: rightRest := by
    rw [braced_append, braced_append] at same
    exact (List.cons.inj same).2
  obtain ⟨tokens, -, rests⟩ :=
    eq_of_append_brace_eq leftUnbraced rightUnbraced (.inr rfl) (.inr rfl) opened
  exact ⟨tokens, rests⟩

/-- The groups that are closed in a text, in order. -/
structure Closes
    (text : List Char)
    (closed : List (List Char)) :
    Prop where
  unbraced : ∀ token ∈ closed, IsUnbraced token
  /-- No group is closed behind the last of them. -/
  rest : ∃ opened, text = grouped closed ++ opened ∧ '}' ∉ opened

theorem closes_mem_grouped_cons
    (token : List Char)
    (others : List (List Char))
    (rest : List Char) :
    '}' ∈ grouped (token :: others) ++ rest := by
  simp [grouped, braced]

/-- A text tells which groups are closed in it. -/
theorem Closes.unique
    {text : List Char}
    {left right : List (List Char)}
    (leftCloses : Closes text left)
    (rightCloses : Closes text right) :
    left = right := by
  induction left generalizing text right with
  | nil =>
      obtain ⟨opened, rfl, notClosed⟩ := leftCloses.rest
      obtain ⟨others, shape, -⟩ := rightCloses.rest
      cases right with
      | nil => rfl
      | cons token behind =>
          have closes := closes_mem_grouped_cons token behind others
          rw [← shape] at closes
          exact absurd closes notClosed
  | cons token behind inductionHypothesis =>
      obtain ⟨opened, rfl, notClosed⟩ := leftCloses.rest
      obtain ⟨others, shape, otherNotClosed⟩ := rightCloses.rest
      cases right with
      | nil =>
          have closes := closes_mem_grouped_cons token behind opened
          rw [shape] at closes
          exact absurd closes otherNotClosed
      | cons other rightBehind =>
          obtain ⟨tokenUnbraced, behindUnbraced⟩ := List.forall_mem_cons.1 leftCloses.unbraced
          obtain ⟨otherUnbraced, rightUnbraced⟩ := List.forall_mem_cons.1 rightCloses.unbraced
          rw [grouped_cons, grouped_cons, List.append_assoc, List.append_assoc] at shape
          obtain ⟨rfl, same⟩ := eq_and_eq_of_braced_append_eq tokenUnbraced otherUnbraced shape
          rw [inductionHypothesis ⟨behindUnbraced, opened, rfl, notClosed⟩
            ⟨rightUnbraced, others, same, otherNotClosed⟩]

/-- A group may be taken off the front of complete groups. -/
theorem isGrouped_of_braced_append
    {token rest : List Char}
    (unbraced : IsUnbraced token)
    (isGrouped : IsGrouped (braced token ++ rest)) :
    IsGrouped rest := by
  obtain ⟨tokens, tokensUnbraced, shape⟩ := isGrouped
  cases tokens with
  | nil => simp [grouped, braced] at shape
  | cons first others =>
      obtain ⟨firstUnbraced, othersUnbraced⟩ := List.forall_mem_cons.1 tokensUnbraced
      rw [grouped_cons] at shape
      obtain ⟨-, rests⟩ := eq_and_eq_of_braced_append_eq firstUnbraced unbraced shape
      exact ⟨others, othersUnbraced, rests⟩

theorem canContinue_of_grouped_append
    {closed : List (List Char)}
    (unbraced : ∀ token ∈ closed, IsUnbraced token)
    {rest : List Char}
    (canContinue : CanContinue (grouped closed ++ rest)) :
    CanContinue rest := by
  induction closed with
  | nil => exact canContinue
  | cons token others inductionHypothesis =>
      obtain ⟨tokenUnbraced, othersUnbraced⟩ := List.forall_mem_cons.1 unbraced
      obtain ⟨more, isGrouped⟩ := canContinue
      rw [grouped_cons, List.append_assoc, List.append_assoc] at isGrouped
      refine inductionHypothesis othersUnbraced ⟨more, ?_⟩
      rw [List.append_assoc]
      exact isGrouped_of_braced_append tokenUnbraced isGrouped

/-- What an open group begins with; outside of groups nothing is open. -/
def opening : Option (List Char) → List Char
  | none => []
  | some token => '{' :: token

/-- A character can follow neither closed groups nor the open one. -/
def Blocks
    (character : Char) :
    Option (List Char) → Prop
  | none => character ≠ '{'
  | some _ => character = '{'

/-- A text is cut into closed groups, an open one and what cannot follow. -/
structure IsCut
    (text : List Char)
    (closed : List (List Char))
    (place : Option (List Char))
    (rest : List Char) :
    Prop where
  text_eq : text = grouped closed ++ (opening place ++ rest)
  closedUnbraced : ∀ token ∈ closed, IsUnbraced token
  openUnbraced : ∀ token ∈ place, IsUnbraced token
  blocked : ∀ character ∈ rest.head?, Blocks character place

/-- A text that begins with a group is cut where the text behind the group is cut. -/
theorem IsCut.braced_append
    {text rest token : List Char}
    {closed : List (List Char)}
    {place : Option (List Char)}
    (unbraced : IsUnbraced token)
    (cut : IsCut text closed place rest) :
    IsCut (braced token ++ text) (token :: closed) place rest where
  text_eq := by
    rw [cut.text_eq, grouped_cons, List.append_assoc]
  closedUnbraced := List.forall_mem_cons.2 ⟨unbraced, cut.closedUnbraced⟩
  openUnbraced := cut.openUnbraced
  blocked := cut.blocked

/-- Characters up to the first brace are a token. -/
theorem exists_unbraced_append
    (text : List Char) :
    ∃ token rest, text = token ++ rest ∧ IsUnbraced token ∧
      ∀ character ∈ rest.head?, character = '{' ∨ character = '}' := by
  induction text with
  | nil => exact ⟨[], [], rfl, by simp [IsUnbraced], by simp⟩
  | cons character others inductionHypothesis =>
      by_cases brace : character = '{' ∨ character = '}'
      · refine ⟨[], character :: others, rfl, by simp [IsUnbraced], ?_⟩
        simpa using brace
      · obtain ⟨token, rest, rfl, unbraced, ends⟩ := inductionHypothesis
        rw [not_or] at brace
        exact ⟨character :: token, rest, rfl, List.forall_mem_cons.2 ⟨brace, unbraced⟩, ends⟩

/-- Every text has a cut. -/
theorem exists_isCut
    (text : List Char) :
    ∃ closed place rest, IsCut text closed place rest := by
  -- A group is taken off at a time, so that the induction is on the length.
  induction size : text.length using Nat.strong_induction_on generalizing text with
  | _ bound inductionHypothesis =>
      have nothing : ∀ token ∈ ([] : List (List Char)), IsUnbraced token := by simp
      match text with
      | [] => exact ⟨[], none, [], rfl, nothing, by simp, by simp⟩
      | first :: others =>
          by_cases opens : first = '{'
          · subst opens
            obtain ⟨token, rest, rfl, unbraced, ends⟩ := exists_unbraced_append others
            match rest with
            | [] => exact ⟨[], some token, [], rfl, nothing, by simpa, by simp⟩
            | brace :: behind =>
                rcases ends brace rfl with rfl | rfl
                · exact ⟨[], some token, '{' :: behind, rfl, nothing, by simpa, by simp [Blocks]⟩
                · have shorter : behind.length < bound := by
                    rw [← size, List.length_cons, List.length_append, List.length_cons]
                    omega
                  obtain ⟨closed, place, rest, cut⟩ := inductionHypothesis _ shorter behind rfl
                  rw [← braced_append]
                  exact ⟨token :: closed, place, rest, cut.braced_append unbraced⟩
          · exact ⟨[], none, first :: others, rfl, nothing, by simp, by simpa [Blocks] using opens⟩

/-- A blocking character cannot be continued to complete groups. -/
theorem not_canContinue_of_blocks
    {place : Option (List Char)}
    (unbraced : ∀ token ∈ place, IsUnbraced token)
    {character : Char}
    (blocks : Blocks character place)
    (rest : List Char) :
    ¬CanContinue (opening place ++ character :: rest) := by
  rintro ⟨more, tokens, tokensUnbraced, shape⟩
  cases tokens with
  | nil => simp [grouped] at shape
  | cons first others =>
      rw [grouped_cons, List.append_assoc] at shape
      cases place with
      | none =>
          refine blocks ?_
          exact (List.head_eq_of_cons_eq shape).symm
      | some token =>
          obtain rfl : character = '{' := blocks
          have opened : first ++ '}' :: grouped others = token ++ '{' :: (rest ++ more) := by
            simpa [braced, opening] using shape
          have braces := (eq_of_append_brace_eq (tokensUnbraced first (.head _))
            (unbraced token rfl) (.inr rfl) (.inl rfl) opened).2.1
          exact absurd braces (by decide)

namespace IsCut

variable {text rest : List Char} {closed : List (List Char)} {place : Option (List Char)}

theorem canContinue
    (cut : IsCut text closed place rest) :
    CanContinue (grouped closed ++ opening place) := by
  cases place with
  | none => exact ⟨[], closed, cut.closedUnbraced, by simp [opening]⟩
  | some token =>
      refine ⟨['}'], closed ++ [token], ?_, by simp [grouped, opening, braced]⟩
      exact List.forall_mem_append.2 ⟨cut.closedUnbraced, by simpa using cut.openUnbraced⟩

/-- The groups before a cut are those that are closed there. -/
theorem closes
    (cut : IsCut text closed place rest) :
    Closes (text.take (grouped closed ++ opening place).length) closed where
  unbraced := cut.closedUnbraced
  rest := by
    refine ⟨opening place, ?_, ?_⟩
    · rw [cut.text_eq, ← List.append_assoc, List.take_left]
    · cases place with
      | none => exact List.not_mem_nil
      | some token =>
          intro member
          rcases List.mem_cons.1 member with closes | inToken
          · exact absurd closes (by decide)
          · exact (cut.openUnbraced token rfl _ inToken).2 rfl

/-- A text can be continued to complete groups up to its cut and no further. -/
theorem isReach
    (cut : IsCut text closed place rest) :
    IsReach text (grouped closed ++ opening place).length := by
  have shape : text = (grouped closed ++ opening place) ++ rest := by
    rw [cut.text_eq, List.append_assoc]
  constructor
  · refine ⟨?_, ?_⟩
    · have longer := List.prefix_append (grouped closed ++ opening place) rest
      rw [← shape] at longer
      exact longer.length_le
    · rw [shape, List.take_left]
      exact cut.canContinue
  · rintro length ⟨within, canContinue⟩
    by_contra notLe
    have beyond := Nat.lt_of_not_le notLe
    rw [shape, List.take_append, List.take_of_length_le beyond.le, List.append_assoc]
      at canContinue
    have continues := canContinue_of_grouped_append cut.closedUnbraced canContinue
    cases rest with
    | nil =>
        rw [shape, List.append_nil] at within
        exact notLe within
    | cons character others =>
        obtain ⟨more, moreEq⟩ := Nat.exists_eq_succ_of_ne_zero (Nat.sub_ne_zero_of_lt beyond)
        rw [moreEq, List.take_succ_cons] at continues
        exact not_canContinue_of_blocks cut.openUnbraced (cut.blocked character rfl) _ continues

end IsCut

end ManaCost
