import ManaCost.Cost.Reader
import ManaCost.Proofs.Text.Groups

namespace ManaCost

/-!
# What the reader of costs accepts

The reader takes one group after another.  It stops at the first group that holds no symbol, and
otherwise at the cut of the text.  The main statements are `readGroups_eq_ok_iff`, by which it
accepts the texts that spell symbols, and `readGroups_eq_error_iff`, by which it refuses any other
text with its first fault.
-/

/-- A token between braces writes a symbol. -/
def Writes
    (token : List Char)
    (symbol : Symbol) :
    Prop :=
  Symbol.read (braced token) = .ok symbol

/-- A text spells symbols when it is made of groups that write them. -/
def Spells
    (text : List Char)
    (symbols : List Symbol) :
    Prop :=
  ∃ tokens, (∀ token ∈ tokens, IsUnbraced token) ∧ grouped tokens = text ∧
    List.Forall₂ Writes tokens symbols

/--
The fault of a text that spells no symbols.  As far as the text can be continued to complete groups,
the first closed group that writes no symbol has its own fault.  When every group that is closed
there writes a symbol, the text is malformed at the place where it cannot be continued, or at its
end.
-/
inductive Refuses
    (text : List Char) :
    Fault → Prop
  | group
      {reach : Nat}
      {before after : List (List Char)}
      {token : List Char}
      {symbols : List Symbol}
      {fault : Fault}
      (isReach : IsReach text reach)
      (closes : Closes (text.take reach) (before ++ token :: after))
      (accepted : List.Forall₂ Writes before symbols)
      (refused : Symbol.read (braced token) = .error fault) :
      Refuses text fault
  | shape
      {reach : Nat}
      {closed : List (List Char)}
      {symbols : List Symbol}
      (isReach : IsReach text reach)
      (closes : Closes (text.take reach) closed)
      (accepted : List.Forall₂ Writes closed symbols) :
      Refuses text (.malformedCost (String.ofList text) reach)

/-- Inside a group, characters other than braces are collected. -/
theorem readGroups_unbraced
    {token : List Char}
    (unbraced : IsUnbraced token)
    (whole reversed rest : List Char)
    (position : Nat) :
    readGroups whole position (some reversed) (token ++ rest) =
      readGroups whole (position + token.length) (some (token.reverse ++ reversed)) rest := by
  induction token generalizing reversed position with
  | nil =>
      rfl
  | cons character others inductionHypothesis =>
      obtain ⟨⟨notOpen, notClose⟩, othersUnbraced⟩ := List.forall_mem_cons.1 unbraced
      rw [List.cons_append, readGroups, if_neg notOpen, if_neg notClose,
        inductionHypothesis othersUnbraced, List.length_cons, List.reverse_cons, List.append_assoc,
        List.singleton_append, Nat.add_assoc, Nat.add_comm 1]

/-- A closed group is read as a symbol before the groups behind it are read. -/
theorem readGroups_braced_append
    {token : List Char}
    (unbraced : IsUnbraced token)
    (whole rest : List Char)
    (position : Nat) :
    readGroups whole position none (braced token ++ rest) =
      match Symbol.read (braced token) with
      | .error fault => .error fault
      | .ok symbol =>
          (readGroups whole (position + (braced token).length) none rest).map (symbol :: ·) := by
  have closed : (token.reverse ++ []).reverse = token := by
    rw [List.append_nil, List.reverse_reverse]
  have length : position + (braced token).length = position + 1 + token.length + 1 := by
    rw [braced, List.cons_append, List.length_cons, List.length_append, List.length_singleton]
    omega
  rw [braced_append, readGroups, if_pos rfl, readGroups_unbraced unbraced, readGroups,
    if_neg (by decide), if_pos rfl, closed, length]
  cases Symbol.read (braced token) with
  | error fault => rfl
  | ok symbol =>
      dsimp only
      cases readGroups whole (position + 1 + token.length + 1) none rest <;> rfl

/-- Groups that write symbols are read before what stands behind them. -/
theorem readGroups_of_writes
    {tokens : List (List Char)}
    {symbols : List Symbol}
    (unbraced : ∀ token ∈ tokens, IsUnbraced token)
    (writes : List.Forall₂ Writes tokens symbols)
    (whole rest : List Char)
    (position : Nat) :
    readGroups whole position none (grouped tokens ++ rest) =
      (readGroups whole (position + (grouped tokens).length) none rest).map (symbols ++ ·) := by
  induction writes generalizing position with
  | nil =>
      change readGroups whole position none rest = (readGroups whole position none rest).map id
      cases readGroups whole position none rest <;> rfl
  | cons first _ inductionHypothesis =>
      obtain ⟨tokenUnbraced, othersUnbraced⟩ := List.forall_mem_cons.1 unbraced
      rw [grouped_cons, List.append_assoc, readGroups_braced_append tokenUnbraced, first]
      dsimp only
      rw [inductionHypothesis othersUnbraced, List.length_append, Nat.add_assoc]
      cases readGroups whole _ none rest <;> rfl

/-- Groups write symbols, or there is a first one that does not. -/
theorem exists_writes_or_refused
    (tokens : List (List Char)) :
    (∃ symbols, List.Forall₂ Writes tokens symbols) ∨
      ∃ before token after symbols fault, tokens = before ++ token :: after ∧
        List.Forall₂ Writes before symbols ∧ Symbol.read (braced token) = .error fault := by
  induction tokens with
  | nil =>
      exact .inl ⟨[], .nil⟩
  | cons token others inductionHypothesis =>
      cases read : Symbol.read (braced token) with
      | error fault =>
          exact .inr ⟨[], token, others, [], fault, rfl, .nil, read⟩
      | ok symbol =>
          rcases inductionHypothesis with ⟨symbols, writes⟩ |
            ⟨before, refused, after, symbols, fault, rfl, writes, isFault⟩
          · exact .inl ⟨symbol :: symbols, .cons read writes⟩
          · exact .inr
              ⟨token :: before, refused, after, symbol :: symbols, fault, rfl, .cons read writes,
                isFault⟩

/-- The reader stops at a cut, unless the text ends there outside of a group. -/
theorem readGroups_blocked
    {place : Option (List Char)}
    {rest : List Char}
    (unbraced : ∀ token ∈ place, IsUnbraced token)
    (blocked : ∀ character ∈ rest.head?, Blocks character place)
    (whole : List Char)
    (position : Nat) :
    readGroups whole position none (opening place ++ rest) =
      if place = none ∧ rest = [] then
        .ok []
      else
        .error (.malformedCost (String.ofList whole) (position + (opening place).length)) := by
  cases place with
  | none =>
      cases rest with
      | nil => rfl
      | cons character others =>
          have notOpen : character ≠ '{' := blocked character rfl
          rw [opening, List.nil_append, readGroups, if_neg notOpen, if_neg (by simp)]
          rfl
  | some token =>
      have length : position + (opening (some token)).length = position + 1 + token.length := by
        rw [opening, List.length_cons]
        omega
      rw [if_neg (by simp), length, opening, List.cons_append, readGroups, if_pos rfl,
        readGroups_unbraced (unbraced token rfl)]
      cases rest with
      | nil => rfl
      | cons character others =>
          obtain rfl : character = '{' := blocked character rfl
          rw [readGroups, if_pos rfl]

/-- What reading a text comes to, by its cut. -/
theorem readGroups_cut
    {text rest : List Char}
    {closed : List (List Char)}
    {place : Option (List Char)}
    {symbols : List Symbol}
    (cut : IsCut text closed place rest)
    (writes : List.Forall₂ Writes closed symbols)
    (whole : List Char) :
    readGroups whole 0 none text =
      if place = none ∧ rest = [] then
        .ok symbols
      else
        .error
          (.malformedCost (String.ofList whole) (grouped closed ++ opening place).length) := by
  rw [cut.text_eq, readGroups_of_writes cut.closedUnbraced writes,
    readGroups_blocked cut.openUnbraced cut.blocked, Nat.zero_add, List.length_append]
  split
  · rw [Except.map, List.append_nil]
  · rfl

/-- The reader stops at the first group that writes no symbol. -/
theorem readGroups_refused
    {before after : List (List Char)}
    {token : List Char}
    {symbols : List Symbol}
    {fault : Fault}
    (unbraced : ∀ other ∈ before ++ token :: after, IsUnbraced other)
    (accepted : List.Forall₂ Writes before symbols)
    (refused : Symbol.read (braced token) = .error fault)
    (whole rest : List Char) :
    readGroups whole 0 none (grouped (before ++ token :: after) ++ rest) = .error fault := by
  obtain ⟨beforeUnbraced, othersUnbraced⟩ := List.forall_mem_append.1 unbraced
  have tokenUnbraced := (List.forall_mem_cons.1 othersUnbraced).1
  rw [grouped_append, grouped_cons, List.append_assoc, List.append_assoc,
    readGroups_of_writes beforeUnbraced accepted, readGroups_braced_append tokenUnbraced, refused]
  rfl

/-- The reader accepts the texts that spell symbols. -/
theorem readGroups_eq_ok_iff
    {text : List Char}
    {symbols : List Symbol}
    (whole : List Char) :
    readGroups whole 0 none text = .ok symbols ↔ Spells text symbols := by
  constructor
  · intro isRead
    obtain ⟨closed, place, rest, cut⟩ := exists_isCut text
    rcases exists_writes_or_refused closed with ⟨written, writes⟩ |
      ⟨before, token, after, written, fault, rfl, accepted, refused⟩
    · rw [readGroups_cut cut writes] at isRead
      split at isRead
      · rename_i atEnd
        obtain ⟨rfl, rfl⟩ := atEnd
        obtain rfl := Except.ok.inj isRead
        refine ⟨closed, cut.closedUnbraced, ?_, writes⟩
        simpa [opening] using cut.text_eq.symm
      · exact absurd isRead (by simp)
    · rw [cut.text_eq, readGroups_refused cut.closedUnbraced accepted refused] at isRead
      exact absurd isRead (by simp)
  · rintro ⟨tokens, unbraced, rfl, writes⟩
    have read := readGroups_of_writes unbraced writes whole [] 0
    rwa [List.append_nil, readGroups, Except.map, List.append_nil] at read

/-- The reader refuses the other texts, each with its first fault. -/
theorem readGroups_eq_error_iff
    {text : List Char}
    {fault : Fault} :
    readGroups text 0 none text = .error fault ↔
      (∀ symbols, ¬Spells text symbols) ∧ Refuses text fault := by
  obtain ⟨closed, place, rest, cut⟩ := exists_isCut text
  constructor
  · intro isRefused
    constructor
    · intro symbols spells
      rw [(readGroups_eq_ok_iff text).2 spells] at isRefused
      exact absurd isRefused (by simp)
    · rcases exists_writes_or_refused closed with ⟨written, writes⟩ |
        ⟨before, token, after, written, groupFault, rfl, accepted, refused⟩
      · rw [readGroups_cut cut writes] at isRefused
        split at isRefused
        · exact absurd isRefused (by simp)
        · obtain rfl := Except.error.inj isRefused
          exact .shape cut.isReach cut.closes writes
      · have stops :=
          readGroups_refused cut.closedUnbraced accepted refused text (opening place ++ rest)
        rw [← cut.text_eq, isRefused] at stops
        obtain rfl := Except.error.inj stops
        exact .group cut.isReach cut.closes accepted refused
  · rintro ⟨spellsNothing, refuses⟩
    cases refuses with
    | group isReach closes accepted refused =>
        obtain ⟨opened, shape, -⟩ := closes.rest
        rw [← List.take_append_drop _ text, shape, List.append_assoc]
        exact readGroups_refused closes.unbraced accepted refused _ _
    | shape isReach closes accepted =>
        obtain rfl := isReach.unique cut.isReach
        obtain rfl := closes.unique cut.closes
        cases isRead : readGroups text 0 none text with
        | ok symbols => exact absurd ((readGroups_eq_ok_iff text).1 isRead) (spellsNothing symbols)
        | error other =>
            rw [readGroups_cut cut accepted] at isRead
            split at isRead
            · exact absurd isRead (by simp)
            · exact isRead.symm

end ManaCost
