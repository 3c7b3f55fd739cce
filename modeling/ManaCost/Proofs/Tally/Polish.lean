import Mathlib
import ManaCost.Cost.Basic
import ManaCost.Proofs.Amount.Exact
import ManaCost.Proofs.Tally.Counts

namespace ManaCost.Tally

/-!
# What polishing does to counts

Polishing turns pairs of half pips into whole pips and leaves the counts of all other symbols that
are not generic.  It adds the present generic mana up into one symbol, which stays when it is
positive or nothing else is left.  The order of the result is the subject of other modules.
-/

/-- The counts that are left when pairs of half pips have become whole pips. -/
def settledCounts
    (counts : Symbol → Nat) :
    Symbol → Nat
  | .single (.atom (.pip color)) => counts (.pip color) + counts (.half color) / 2
  | .single (.half color) => counts (.half color) % 2
  | symbol => counts symbol

/-- Settling one color changes the counts of its half pip and its pip only. -/
theorem count_settle
    (tally : Tally)
    (color : Color)
    (symbol : Symbol) :
    (tally.settle color).count symbol =
      if .half color = symbol then
        tally.count symbol % 2
      else
        tally.count symbol + if .pip color = symbol then tally.count (.half color) / 2 else 0 := by
  simp only [settle, count_bump, count_without]
  by_cases isHalf : Symbol.half color = symbol
  · subst isHalf
    simp
  · simp only [isHalf, ↓reduceIte, Nat.add_zero]

/-- Settling colors one after another leaves one half pip of a settled color at most. -/
theorem count_foldl_settle_half
    (colors : List Color)
    (tally : Tally)
    (color : Color) :
    Tally.count (colors.foldl settle tally) (.half color) =
      if color ∈ colors then tally.count (.half color) % 2 else tally.count (.half color) := by
  induction colors generalizing tally with
  | nil =>
      rfl
  | cons first rest inductionHypothesis =>
      rw [List.foldl_cons, inductionHypothesis, count_settle]
      by_cases same : first = color
      · subst same
        simp
      · simp [same, Ne.symm same]

/-- Settling colors one after another gives a pip for each pair of half pips. -/
theorem count_foldl_settle_pip
    (colors : List Color)
    (tally : Tally)
    (color : Color) :
    Tally.count (colors.foldl settle tally) (.pip color) =
      tally.count (.pip color) + if color ∈ colors then tally.count (.half color) / 2 else 0 := by
  induction colors generalizing tally with
  | nil =>
      rfl
  | cons first rest inductionHypothesis =>
      rw [List.foldl_cons, inductionHypothesis, count_settle, count_settle]
      by_cases same : first = color
      · subst same
        simp
      · simp [same, Ne.symm same]

/-- Settling leaves every symbol alone that is neither a pip nor half a pip. -/
theorem count_foldl_settle_of_ne
    (colors : List Color)
    (tally : Tally)
    {symbol : Symbol}
    (notHalf : ∀ color, .half color ≠ symbol)
    (notPip : ∀ color, .pip color ≠ symbol) :
    Tally.count (colors.foldl settle tally) symbol = tally.count symbol := by
  induction colors generalizing tally with
  | nil =>
      rfl
  | cons first rest inductionHypothesis =>
      rw [List.foldl_cons, inductionHypothesis, count_settle, if_neg (notHalf first),
        if_neg (notPip first), Nat.add_zero]

/-- Settling all colors settles the counts. -/
theorem count_settle_all
    (tally : Tally)
    (symbol : Symbol) :
    Tally.count (Color.all.foldl settle tally) symbol = settledCounts tally.count symbol := by
  unfold settledCounts
  split
  · rename_i color
    rw [count_foldl_settle_pip, if_pos color.mem_all]
  · rename_i color
    rw [count_foldl_settle_half, if_pos color.mem_all]
  · rename_i notPip notHalf
    exact count_foldl_settle_of_ne _ _ (fun color same => notHalf color same.symm)
      (fun color same => notPip color same.symm)

theorem Distinct.foldl_settle
    {tally : Tally}
    (distinct : tally.Distinct)
    (colors : List Color) :
    Distinct (colors.foldl settle tally) := by
  induction colors generalizing tally with
  | nil =>
      exact distinct
  | cons first rest inductionHypothesis =>
      exact inductionHypothesis (((distinct.filter _).bump _ _).bump _ _)

theorem Distinct.present
    {tally : Tally}
    (distinct : tally.Distinct) :
    tally.present.Distinct :=
  distinct.filter _

theorem distinct_settledPips
    (tally : Tally) :
    tally.settledPips.Distinct :=
  ((distinct_collected _).foldl_settle _).present

theorem count_present
    {tally : Tally}
    (distinct : tally.Distinct)
    (symbol : Symbol) :
    tally.present.count symbol = tally.count symbol := by
  rw [count_eq_copies distinct.present, copies_present, count_eq_copies distinct]

/-- Settled pips are what is left of the copies that are not generic. -/
theorem count_settledPips
    (tally : Tally)
    (symbol : Symbol) :
    tally.settledPips.count symbol = settledCounts tally.present.nonGeneric.copies symbol := by
  have collected : Tally.count tally.present.nonGeneric.collected =
      tally.present.nonGeneric.copies :=
    funext (count_collected _)
  rw [settledPips, count_present ((distinct_collected _).foldl_settle _), count_settle_all,
    collected]

/-- Settled counts depend on the symbols that are not generic only. -/
theorem settledCounts_congr
    {left right : Symbol → Nat}
    (same : ∀ symbol : Symbol, symbol.isGeneric = false → left symbol = right symbol)
    {symbol : Symbol}
    (notGeneric : symbol.isGeneric = false) :
    settledCounts left symbol = settledCounts right symbol := by
  unfold settledCounts
  split
  · rw [same _ rfl, same _ rfl]
  · rw [same _ rfl]
  · exact same _ notGeneric

/-- Counts without pairs of half pips are settled. -/
theorem settledCounts_eq
    {counts : Symbol → Nat}
    (few : ∀ color, counts (.half color) ≤ 1)
    (symbol : Symbol) :
    settledCounts counts symbol = counts symbol := by
  unfold settledCounts
  split
  · rename_i color
    rw [Nat.div_eq_of_lt (Nat.lt_succ_of_le (few color)), Nat.add_zero]
  · rename_i color
    exact Nat.mod_eq_of_lt (Nat.lt_succ_of_le (few color))
  · rfl

/-- Settled pips are what is left of all copies. -/
theorem count_settledPips_of_not_isGeneric
    (tally : Tally)
    {symbol : Symbol}
    (notGeneric : symbol.isGeneric = false) :
    tally.settledPips.count symbol = settledCounts tally.copies symbol := by
  have onCopies (other : Symbol) (otherNotGeneric : other.isGeneric = false) :
      tally.present.nonGeneric.copies other = tally.copies other := by
    rw [copies_nonGeneric otherNotGeneric, copies_present]
  rw [count_settledPips, settledCounts_congr onCopies notGeneric]

/-- Settled pips are not generic. -/
theorem not_isGeneric_of_mem_settledPips
    {tally : Tally}
    {entry : Symbol × Nat}
    (member : entry ∈ tally.settledPips) :
    entry.1.isGeneric = false := by
  have counted := (mem_iff_count (distinct_settledPips tally) (positive_present _)).1 member
  rw [count_settledPips] at counted
  by_contra generic
  have none : settledCounts tally.present.nonGeneric.copies entry.1 = 0 := by
    have filtered := copies_filter (fun symbol => !symbol.isGeneric) tally.present entry.1
    rcases shape : entry.1 with (_ | _ | amount | _) | _
    case single.generic =>
      rw [shape] at filtered
      exact filtered
    all_goals exact absurd (by rw [shape]; rfl) generic
  omega

/-- Without copies of symbols that are not generic there are no settled pips. -/
theorem settledPips_eq_nil
    {tally : Tally}
    (nothing : ∀ symbol : Symbol, symbol.isGeneric = false → tally.copies symbol = 0) :
    tally.settledPips = [] := by
  rw [List.eq_nil_iff_forall_not_mem]
  intro entry member
  have notGeneric := not_isGeneric_of_mem_settledPips member
  have counted := (mem_iff_count (distinct_settledPips tally) (positive_present _)).1 member
  have none : settledCounts tally.copies entry.1 = 0 := by
    unfold settledCounts
    split
    · rw [nothing _ rfl, nothing _ rfl]
    · rw [nothing _ rfl]
    · exact nothing _ notGeneric
  rw [count_settledPips_of_not_isGeneric tally notGeneric, none] at counted
  omega

/-- All generic mana is one symbol, or there is none and its total is nothing. -/
theorem mergedGeneric_cases
    (tally : Tally) :
    tally.mergedGeneric = [(.generic tally.present.genericTotal, 1)] ∨
      tally.mergedGeneric = [] ∧ tally.present.genericTotal = .zero := by
  unfold mergedGeneric
  dsimp only
  split
  · exact .inl rfl
  · rename_i dropped
    rw [Bool.or_eq_true, not_or, Bool.not_eq_true] at dropped
    exact .inr ⟨rfl, Amount.isPositive_eq_false_iff.1 dropped.1⟩

/-- The merged generic symbol has the total as its amount and is there once. -/
theorem eq_of_mem_mergedGeneric
    {tally : Tally}
    {entry : Symbol × Nat}
    (member : entry ∈ tally.mergedGeneric) :
    entry = (.generic tally.present.genericTotal, 1) := by
  rcases mergedGeneric_cases tally with single | ⟨none, -⟩
  · rw [single] at member
    exact List.mem_singleton.1 member
  · rw [none] at member
    exact absurd member List.not_mem_nil

theorem length_mergedGeneric_le_one
    (tally : Tally) :
    tally.mergedGeneric.length ≤ 1 := by
  rcases mergedGeneric_cases tally with single | ⟨none, -⟩
  · rw [single]
    exact Nat.le_refl 1
  · rw [none]
    exact Nat.zero_le 1

/-- A merged generic symbol of amount zero stays only where no pips do. -/
theorem settledPips_eq_nil_of_zero
    {tally : Tally}
    (kept : tally.mergedGeneric ≠ [])
    (nothing : tally.present.genericTotal = .zero) :
    tally.settledPips = [] := by
  unfold mergedGeneric at kept
  dsimp only at kept
  split at kept
  · rename_i holds
    rw [nothing, Amount.isPositive_eq_false_iff.2 rfl, Bool.false_or, Bool.and_eq_true] at holds
    exact List.isEmpty_iff.1 holds.1
  · exact absurd rfl kept

/-- Polishing puts the settled symbols in order. -/
theorem perm_polish
    (tally : Tally) :
    tally.polish.Perm tally.settled := by
  rw [polish]
  exact perm_arrange _ _

theorem distinct_polish
    (tally : Tally) :
    tally.polish.Distinct := by
  refine Distinct.perm ?_ tally.perm_polish.symm
  unfold Distinct settled
  rw [List.map_append, List.nodup_append]
  refine ⟨distinct_settledPips tally, ?_, ?_⟩
  · rcases mergedGeneric_cases tally with single | ⟨none, -⟩
    · rw [single]
      exact List.nodup_singleton _
    · rw [none]
      exact List.nodup_nil
  · -- Settled pips are not generic, so the merged generic symbol is none of them.
    intro pip pipMember merged mergedMember same
    obtain ⟨entry, member, rfl⟩ := List.mem_map.1 pipMember
    obtain ⟨generic, genericMember, rfl⟩ := List.mem_map.1 mergedMember
    have notGeneric := not_isGeneric_of_mem_settledPips member
    rw [same, eq_of_mem_mergedGeneric genericMember] at notGeneric
    exact Bool.noConfusion notGeneric

theorem positive_polish
    (tally : Tally) :
    tally.polish.Positive := by
  intro entry member
  rcases List.mem_append.1 (tally.perm_polish.mem_iff.1 member) with pip | merged
  · exact positive_present _ entry pip
  · rw [eq_of_mem_mergedGeneric merged]
    exact Nat.one_pos

theorem copies_mergedGeneric
    (tally : Tally)
    {symbol : Symbol}
    (notGeneric : symbol.isGeneric = false) :
    tally.mergedGeneric.copies symbol = 0 := by
  apply copies_eq_zero
  intro member
  obtain ⟨entry, entryMember, rfl⟩ := List.mem_map.1 member
  rw [eq_of_mem_mergedGeneric entryMember] at notGeneric
  exact Bool.noConfusion notGeneric

/-- Polishing settles the counts of the symbols that are not generic. -/
theorem count_polish
    (tally : Tally)
    {symbol : Symbol}
    (notGeneric : symbol.isGeneric = false) :
    tally.polish.count symbol = settledCounts tally.copies symbol := by
  calc
    tally.polish.count symbol = tally.settled.copies symbol := by
      rw [count_eq_copies (distinct_polish tally), copies_eq_of_perm (perm_polish tally)]
    _ = tally.settledPips.count symbol := by
      rw [settled, copies_append, copies_mergedGeneric tally notGeneric, Nat.add_zero,
        count_eq_copies (distinct_settledPips tally)]
    _ = settledCounts tally.copies symbol := count_settledPips_of_not_isGeneric tally notGeneric

/-- Symbols that are not generic add nothing to a generic total. -/
theorem genericTotal_filter
    (tally : Tally) :
    genericTotal (tally.filter fun entry => entry.1.isGeneric) = tally.genericTotal := by
  have amounts (entry : Symbol × Nat) :
      (if entry.1.isGeneric then entry.1.genericAmount?.map fun amount => amount.scale entry.2
        else none) =
        entry.1.genericAmount?.map fun amount => amount.scale entry.2 := by
    unfold Symbol.isGeneric
    cases entry.1.genericAmount? <;> rfl
  unfold genericTotal
  rw [List.filterMap_filter]
  simp only [amounts]

theorem genericTotal_single
    (amount : Amount) :
    genericTotal [(.generic amount, 1)] = amount := by
  change Amount.zero.add (amount.scale 1) = amount
  rw [Amount.scale_one, Amount.zero_add]

theorem mergedGeneric_eq_nil
    {tally : Tally}
    (none : (tally.present.filter fun entry => entry.1.isGeneric) = []) :
    tally.mergedGeneric = [] := by
  have total : tally.present.genericTotal = .zero := by
    rw [← genericTotal_filter, none]
    rfl
  have absent : (tally.present.any fun entry => entry.1.isGeneric) = false := by
    rw [List.any_eq_false]
    exact List.filter_eq_nil_iff.1 none
  rw [mergedGeneric, total, absent, Bool.and_false, Bool.or_false]
  exact if_neg (by decide)

/-- One generic symbol is merged to itself, unless it is nothing and pips are there. -/
theorem mergedGeneric_eq_single
    {tally : Tally}
    {amount : Amount}
    (single : (tally.present.filter fun entry => entry.1.isGeneric) = [(.generic amount, 1)])
    (kept : amount ≠ .zero ∨ tally.settledPips = []) :
    tally.mergedGeneric = [(.generic amount, 1)] := by
  have total : tally.present.genericTotal = amount := by
    rw [← genericTotal_filter, single, genericTotal_single]
  have present : (tally.present.any fun entry => entry.1.isGeneric) = true := by
    have member : (Symbol.generic amount, 1) ∈
        tally.present.filter fun entry => entry.1.isGeneric := by
      rw [single]
      exact List.mem_singleton_self _
    exact List.any_eq_true.2 ⟨_, List.mem_filter.1 member⟩
  rw [mergedGeneric, total, present, Bool.and_true]
  refine if_pos ?_
  rw [Bool.or_eq_true]
  rcases kept with positive | alone
  · refine .inl ?_
    by_contra nothing
    exact positive (Amount.isPositive_eq_false_iff.1 (Bool.eq_false_of_not_eq_true nothing))
  · rw [alone]
    exact .inr rfl

/-- The generic total of a merged symbol is the amount that was merged. -/
theorem genericTotal_mergedGeneric
    (tally : Tally) :
    tally.mergedGeneric.genericTotal = tally.present.genericTotal := by
  rcases mergedGeneric_cases tally with single | ⟨none, nothing⟩
  · rw [single, genericTotal_single]
  · rw [none, nothing]
    rfl

/-- A list of one item at most is equal to its permutations. -/
theorem eq_of_perm_of_length_le_one
    {α : Type}
    {left right : List α}
    (permuted : left.Perm right)
    (few : right.length ≤ 1) :
    left = right := by
  have shape : right = [] ∨ ∃ item, right = [item] := by
    rw [← List.length_eq_zero_iff, ← List.length_eq_one_iff]
    omega
  rcases shape with rfl | ⟨item, rfl⟩
  · exact permuted.eq_nil
  · exact permuted.eq_singleton

/-- The generic symbols of a polished tally are the merged one. -/
theorem filter_isGeneric_polish
    (tally : Tally) :
    (tally.polish.filter fun entry => entry.1.isGeneric) = tally.mergedGeneric := by
  have settled :
      (tally.settled.filter fun entry => entry.1.isGeneric) = tally.mergedGeneric := by
    have pips : (tally.settledPips.filter fun entry => entry.1.isGeneric) = [] := by
      rw [List.filter_eq_nil_iff]
      intro entry member
      rw [not_isGeneric_of_mem_settledPips member]
      exact Bool.false_ne_true
    rw [Tally.settled, List.filter_append, pips, List.nil_append, List.filter_eq_self]
    intro entry member
    rw [eq_of_mem_mergedGeneric member]
    rfl
  refine eq_of_perm_of_length_le_one ?_ tally.length_mergedGeneric_le_one
  have permuted := tally.perm_polish.filter fun entry => entry.1.isGeneric
  rwa [settled] at permuted

/-- Polishing keeps the total of the present generic mana. -/
theorem genericTotal_polish
    (tally : Tally) :
    tally.polish.genericTotal = tally.present.genericTotal := by
  rw [← genericTotal_filter tally.polish, filter_isGeneric_polish, genericTotal_mergedGeneric]

/-- Without settled pips, a polished tally is the merged generic symbol. -/
theorem polish_eq_mergedGeneric
    {tally : Tally}
    (noPips : tally.settledPips = []) :
    tally.polish = tally.mergedGeneric := by
  refine eq_of_perm_of_length_le_one ?_ tally.length_mergedGeneric_le_one
  have permuted := tally.perm_polish
  rwa [settled, noPips, List.nil_append] at permuted

end ManaCost.Tally
