import Mathlib
import ManaCost.Tally

namespace ManaCost.Tally

/-!
# Counting symbols

`Tally.count` reads the first entry of a symbol, `Tally.copies` adds up all of them.  Both agree on
a tally with distinct symbols, and such a tally without zero counts is determined by its counts up
to order.  Every operation that collects symbols keeps them distinct.
-/

/-- How many copies of a symbol all entries hold together. -/
def copies
    (tally : Tally)
    (symbol : Symbol) :
    Nat :=
  match tally with
  | [] => 0
  | entry :: rest => (if entry.1 = symbol then entry.2 else 0) + copies rest symbol

/-- Every symbol has one entry at most. -/
def Distinct
    (tally : Tally) :
    Prop :=
  (tally.map Prod.fst).Nodup

/-- Every entry counts at least one copy. -/
def Positive
    (tally : Tally) :
    Prop :=
  ∀ entry ∈ tally, 0 < entry.2

@[simp] theorem copies_nil
    (symbol : Symbol) :
    copies [] symbol = 0 :=
  rfl

theorem copies_cons
    (entry : Symbol × Nat)
    (rest : Tally)
    (symbol : Symbol) :
    copies (entry :: rest) symbol =
      (if entry.1 = symbol then entry.2 else 0) + copies rest symbol :=
  rfl

theorem copies_append
    (left right : Tally)
    (symbol : Symbol) :
    copies (left ++ right) symbol = left.copies symbol + right.copies symbol := by
  induction left with
  | nil =>
      simp
  | cons entry rest inductionHypothesis =>
      rw [List.cons_append, copies_cons, copies_cons, inductionHypothesis, Nat.add_assoc]

/-- A tally holds no copies of a symbol without an entry. -/
theorem copies_eq_zero
    {tally : Tally}
    {symbol : Symbol}
    (missing : symbol ∉ tally.map Prod.fst) :
    tally.copies symbol = 0 := by
  induction tally with
  | nil =>
      rfl
  | cons entry rest inductionHypothesis =>
      rw [List.map_cons, List.mem_cons, not_or] at missing
      rw [copies_cons, if_neg (Ne.symm missing.1), Nat.zero_add]
      exact inductionHypothesis missing.2

/-- Keeping symbols by a property keeps all their copies. -/
theorem copies_filter
    (keep : Symbol → Bool)
    (tally : Tally)
    (symbol : Symbol) :
    copies (tally.filter fun entry => keep entry.1) symbol =
      if keep symbol then tally.copies symbol else 0 := by
  induction tally with
  | nil =>
      simp
  | cons entry rest inductionHypothesis =>
      by_cases same : entry.1 = symbol
      · subst same
        by_cases kept : keep entry.1 = true
        · simp [kept, copies_cons, inductionHypothesis]
        · simp [kept, inductionHypothesis]
      · by_cases kept : keep entry.1 = true
        · simp [kept, copies_cons, inductionHypothesis, same]
        · simp [kept, copies_cons, inductionHypothesis, same]

/-- Dropping zero counts drops no copies. -/
theorem copies_present
    (tally : Tally)
    (symbol : Symbol) :
    tally.present.copies symbol = tally.copies symbol := by
  induction tally with
  | nil =>
      rfl
  | cons entry rest inductionHypothesis =>
      unfold present at inductionHypothesis ⊢
      by_cases positive : 0 < entry.2
      · simp [positive, copies_cons, inductionHypothesis]
      · have none : entry.2 = 0 := by omega
        simp [copies_cons, inductionHypothesis, none]

/-- Copies of symbols that are not generic survive when generic mana is left out. -/
theorem copies_nonGeneric
    {symbol : Symbol}
    (notGeneric : symbol.isGeneric = false)
    (tally : Tally) :
    tally.nonGeneric.copies symbol = tally.copies symbol := by
  have kept := copies_filter (fun symbol => !symbol.isGeneric) tally symbol
  rwa [notGeneric, Bool.not_false, if_pos rfl] at kept

/-- The count of a symbol is that of its only entry. -/
theorem count_eq_copies
    {tally : Tally}
    (distinct : tally.Distinct)
    (symbol : Symbol) :
    tally.count symbol = tally.copies symbol := by
  induction tally with
  | nil =>
      rfl
  | cons entry rest inductionHypothesis =>
      obtain ⟨fresh, restDistinct⟩ := List.nodup_cons.1 distinct
      rw [count_cons, copies_cons]
      split
      · rename_i same
        subst same
        rw [copies_eq_zero fresh, Nat.add_zero]
      · rw [Nat.zero_add]
        exact inductionHypothesis restDistinct

/-- Forgetting a symbol leaves the counts of the others. -/
theorem count_without
    (tally : Tally)
    (forgotten symbol : Symbol) :
    (tally.without forgotten).count symbol =
      if forgotten = symbol then 0 else tally.count symbol := by
  induction tally with
  | nil =>
      simp [without]
  | cons entry rest inductionHypothesis =>
      unfold without at inductionHypothesis ⊢
      by_cases same : entry.1 = forgotten
      · simp only [same, ne_eq, not_true_eq_false, decide_false, Bool.false_eq_true,
          not_false_eq_true, List.filter_cons_of_neg, inductionHypothesis, count_cons]
        split <;> rfl
      · simp only [ne_eq, same, not_false_eq_true, decide_true, List.filter_cons_of_pos,
          inductionHypothesis, count_cons]
        split
        · rename_i found
          subst found
          rw [if_neg (Ne.symm same)]
        · rfl

/-- Merging adds the copies of the right tally to the counts of the left one. -/
theorem count_merge
    (left right : Tally)
    (symbol : Symbol) :
    (left.merge right).count symbol = left.count symbol + right.copies symbol := by
  induction right generalizing left with
  | nil =>
      rfl
  | cons entry rest inductionHypothesis =>
      have step : left.merge (entry :: rest) = (left.bump entry.1 entry.2).merge rest := rfl
      rw [step, inductionHypothesis, count_bump, copies_cons, Nat.add_assoc]

theorem count_collected
    (tally : Tally)
    (symbol : Symbol) :
    tally.collected.count symbol = tally.copies symbol := by
  rw [collected, count_merge, count_nil, Nat.zero_add]

/-- Changing the count of every entry changes the counts of symbols alike. -/
theorem count_mapCounts
    (change : Symbol → Nat → Nat)
    (tally : Tally)
    {symbol : Symbol}
    (nothing : change symbol 0 = 0) :
    Tally.count (tally.map fun entry => (entry.1, change entry.1 entry.2)) symbol =
      change symbol (tally.count symbol) := by
  induction tally with
  | nil =>
      exact nothing.symm
  | cons entry rest inductionHypothesis =>
      rw [List.map_cons, count_cons, count_cons, inductionHypothesis]
      split
      · rename_i same
        rw [same]
      · rfl

/-- The tally of a list counts each symbol as often as the list has it. -/
theorem count_ofSymbols
    (symbols : List Symbol)
    (symbol : Symbol) :
    (ofSymbols symbols).count symbol = symbols.count symbol := by
  have onto (tally : Tally) :
      Tally.count (symbols.foldl (fun tally symbol => tally.bump symbol 1) tally) symbol =
        tally.count symbol + symbols.count symbol := by
    induction symbols generalizing tally with
    | nil =>
        rfl
    | cons first rest inductionHypothesis =>
        rw [List.foldl_cons, inductionHypothesis, count_bump, List.count_cons, Nat.add_assoc,
          Nat.add_comm (if first = symbol then 1 else 0)]
        simp
  have start := onto []
  rwa [count_nil, Nat.zero_add] at start

/-- Written out, a tally has each symbol as often as it holds copies. -/
theorem count_flatMap_replicate
    (tally : Tally)
    (symbol : Symbol) :
    (tally.flatMap fun entry => List.replicate entry.2 entry.1).count symbol =
      tally.copies symbol := by
  induction tally with
  | nil =>
      rfl
  | cons entry rest inductionHypothesis =>
      rw [List.flatMap_cons, List.count_append, inductionHypothesis, List.count_replicate,
        copies_cons]
      simp only [beq_iff_eq]

/-- The symbols of a tally in which one more symbol is counted. -/
theorem map_fst_bump
    (tally : Tally)
    (symbol : Symbol)
    (more : Nat) :
    (tally.bump symbol more).map Prod.fst =
      if symbol ∈ tally.map Prod.fst then
        tally.map Prod.fst
      else
        tally.map Prod.fst ++ [symbol] := by
  induction tally with
  | nil =>
      rfl
  | cons entry rest inductionHypothesis =>
      rw [bump]
      by_cases same : entry.1 = symbol
      · simp [same]
      · rw [if_neg same, List.map_cons, inductionHypothesis]
        by_cases member : symbol ∈ rest.map Prod.fst
        · simp [member]
        · simp [member, Ne.symm same]

/-- Counting a symbol again keeps symbols distinct. -/
theorem Distinct.bump
    {tally : Tally}
    (distinct : tally.Distinct)
    (symbol : Symbol)
    (more : Nat) :
    (tally.bump symbol more).Distinct := by
  unfold Distinct
  rw [map_fst_bump]
  split
  · exact distinct
  · rename_i fresh
    rw [List.nodup_append]
    refine ⟨distinct, List.nodup_singleton symbol, ?_⟩
    intro first firstMember second secondMember same
    rw [List.mem_singleton] at secondMember
    subst same secondMember
    exact fresh firstMember

/-- Merging another tally keeps symbols distinct, however often they occur there. -/
theorem Distinct.merge
    {left : Tally}
    (distinct : left.Distinct)
    (right : Tally) :
    (left.merge right).Distinct := by
  induction right generalizing left with
  | nil =>
      exact distinct
  | cons entry rest inductionHypothesis =>
      exact inductionHypothesis (distinct.bump entry.1 entry.2)

theorem Distinct.filter
    {tally : Tally}
    (distinct : tally.Distinct)
    (keep : Symbol × Nat → Bool) :
    Distinct (tally.filter keep) :=
  List.Nodup.sublist (List.filter_sublist.map Prod.fst) distinct

theorem Distinct.mapCounts
    {tally : Tally}
    (distinct : tally.Distinct)
    (change : Symbol → Nat → Nat) :
    Distinct (tally.map fun entry => (entry.1, change entry.1 entry.2)) := by
  unfold Distinct
  rwa [List.map_map]

theorem distinct_nil :
    Distinct [] :=
  List.nodup_nil

theorem Distinct.foldl_bump
    {tally : Tally}
    (distinct : tally.Distinct)
    (symbols : List Symbol) :
    Distinct (symbols.foldl (fun tally symbol => tally.bump symbol 1) tally) := by
  induction symbols generalizing tally with
  | nil =>
      exact distinct
  | cons symbol rest inductionHypothesis =>
      exact inductionHypothesis (distinct.bump symbol 1)

theorem distinct_ofSymbols
    (symbols : List Symbol) :
    (ofSymbols symbols).Distinct :=
  distinct_nil.foldl_bump symbols

/-- Setting the count of a new symbol makes it the last entry. -/
theorem put_of_not_mem
    {tally : Tally}
    {symbol : Symbol}
    (fresh : symbol ∉ tally.map Prod.fst)
    (count : Nat) :
    tally.put symbol count = tally ++ [(symbol, count)] := by
  induction tally with
  | nil =>
      rfl
  | cons entry rest inductionHypothesis =>
      rw [List.map_cons, List.mem_cons, not_or] at fresh
      rw [put, if_neg (Ne.symm fresh.1), inductionHypothesis fresh.2, List.cons_append]

/-- A map of counts that names each symbol once is kept entry by entry. -/
theorem ofCounts_of_nodup
    {counts : List (Symbol × Int)}
    (distinct : (counts.map Prod.fst).Nodup) :
    ofCounts counts = counts.map fun entry => (entry.1, entry.2.toNat) := by
  have onto (before : Tally) (rest : List (Symbol × Int))
      (bothDistinct : (before.map Prod.fst ++ rest.map Prod.fst).Nodup) :
      rest.foldl (fun tally entry => tally.put entry.1 entry.2.toNat) before =
        before ++ rest.map fun entry => (entry.1, entry.2.toNat) := by
    induction rest generalizing before with
    | nil =>
        exact (List.append_nil before).symm
    | cons entry others inductionHypothesis =>
        rw [List.map_cons] at bothDistinct
        have fresh : entry.1 ∉ before.map Prod.fst :=
          (List.nodup_middle.1 bothDistinct).notMem ∘ List.mem_append_left _
        have shifted : (Tally.put before entry.1 entry.2.toNat).map Prod.fst =
            before.map Prod.fst ++ [entry.1] := by
          rw [put_of_not_mem fresh, List.map_append, List.map_singleton]
        rw [List.foldl_cons, inductionHypothesis, put_of_not_mem fresh, List.append_assoc,
          List.singleton_append, List.map_cons]
        rwa [shifted, List.append_assoc, List.singleton_append]
  exact onto [] counts distinct

/-- Counts of distinct symbols are kept as they are. -/
theorem ofCounts_of_distinct
    {tally : Tally}
    (distinct : tally.Distinct) :
    ofCounts (tally.map fun entry => (entry.1, (entry.2 : Int))) = tally := by
  have named : ((tally.map fun entry => (entry.1, (entry.2 : Int))).map Prod.fst).Nodup := by
    rwa [List.map_map]
  rw [ofCounts_of_nodup named, List.map_map]
  exact List.map_id tally

theorem distinct_collected
    (tally : Tally) :
    tally.collected.Distinct :=
  distinct_nil.merge tally

theorem Distinct.perm
    {left right : Tally}
    (distinct : left.Distinct)
    (same : left.Perm right) :
    right.Distinct :=
  (same.map Prod.fst).nodup_iff.1 distinct

theorem copies_eq_of_perm
    {left right : Tally}
    (same : left.Perm right)
    (symbol : Symbol) :
    left.copies symbol = right.copies symbol := by
  induction same with
  | nil =>
      rfl
  | cons entry _ inductionHypothesis =>
      rw [copies_cons, copies_cons, inductionHypothesis]
  | swap first second rest =>
      simp only [copies_cons]
      omega
  | trans _ _ firstHypothesis secondHypothesis =>
      exact firstHypothesis.trans secondHypothesis

/-- The entries of distinct symbols are their counts. -/
theorem mem_iff_count
    {tally : Tally}
    (distinct : tally.Distinct)
    (positive : tally.Positive)
    {entry : Symbol × Nat} :
    entry ∈ tally ↔ 0 < entry.2 ∧ tally.count entry.1 = entry.2 := by
  induction tally with
  | nil =>
      rw [count_nil]
      constructor
      · intro member
        exact absurd member List.not_mem_nil
      · rintro ⟨some, none⟩
        omega
  | cons first rest inductionHypothesis =>
      obtain ⟨fresh, restDistinct⟩ := List.nodup_cons.1 distinct
      have restPositive : Positive rest := fun other member => positive other (.tail first member)
      rw [List.mem_cons, count_cons]
      by_cases same : first.1 = entry.1
      · rw [if_pos same]
        constructor
        · rintro (rfl | member)
          · exact ⟨positive entry (.head rest), rfl⟩
          · exact absurd (same ▸ List.mem_map_of_mem member) fresh
        · rintro ⟨-, counted⟩
          exact .inl (Prod.ext same.symm counted.symm)
      · rw [if_neg same, ← inductionHypothesis restDistinct restPositive]
        constructor
        · rintro (rfl | member)
          · exact absurd rfl same
          · exact member
        · exact .inr

/-- Counts determine a tally up to order. -/
theorem perm_of_count_eq
    {left right : Tally}
    (leftDistinct : left.Distinct)
    (leftPositive : left.Positive)
    (rightDistinct : right.Distinct)
    (rightPositive : right.Positive)
    (same : ∀ symbol, left.count symbol = right.count symbol) :
    left.Perm right := by
  rw [List.perm_ext_iff_of_nodup leftDistinct.of_map rightDistinct.of_map]
  intro entry
  rw [mem_iff_count leftDistinct leftPositive, mem_iff_count rightDistinct rightPositive, same]

theorem positive_present
    (tally : Tally) :
    tally.present.Positive := by
  intro entry member
  exact of_decide_eq_true (List.mem_filter.1 member).2

theorem present_of_positive
    {tally : Tally}
    (positive : tally.Positive) :
    tally.present = tally := by
  refine List.filter_eq_self.2 ?_
  intro entry member
  exact decide_eq_true (positive entry member)

end ManaCost.Tally
