import Mathlib
import ManaCost.Proofs.Symbol.Grammar

namespace ManaCost

/-!
# Hybrids told by their options

However its options are given, a hybrid symbol holds each of them once, with the Phyrexian pip last,
and is read back from its token.  The main statement is `Hybrid.exists_isCanonicalOf_both`: hybrids
have the same options exactly when they were made of the same set of options, and exactly when they
are written alike.
-/

/-- A symbol that can be read back is read from its token without braces too. -/
theorem Symbol.read_token
    {symbol : Symbol}
    (legible : symbol.IsLegible) :
    read symbol.token = .ok symbol := by
  have unopened : symbol.token.head? ≠ some '{' :=
    fun opened => (brace_not_mem_token (List.mem_of_head? opened)).1 rfl
  exact read_eq_ok_iff_denotes.2
    ⟨symbol.token, .bare unopened, ofToken_eq_ok_iff.1 (ofToken_token legible)⟩

/-- Pure symbols are taken as options one by one. -/
theorem mapM_single
    {take : Symbol → Except Fault PureSymbol}
    (takes : ∀ option, take (.single option) = .ok option)
    (options : List PureSymbol) :
    (options.map Symbol.single).mapM take = .ok options := by
  induction options with
  | nil => rfl
  | cons option rest inductionHypothesis =>
      rw [List.map_cons, List.mapM_cons, takes, inductionHypothesis]
      rfl

theorem Symbol.hybridOf_single
    {given : List PureSymbol}
    {hybrid : Hybrid}
    (made : Hybrid.ofOptions? given = some hybrid) :
    hybridOf (given.map .single) = .ok (.hybrid hybrid) := by
  rw [hybridOf, mapM_single fun _ => rfl]
  simp only [bind, Except.bind, made]
  rfl

namespace Hybrid

variable {given left right : List PureSymbol}

/-- Two hybrids are paid in the same ways, in whatever order these are kept. -/
def SameOptions
    (left right : Hybrid) :
    Prop :=
  ∀ option, option ∈ left.options ↔ option ∈ right.options

theorem nodup_options
    (hybrid : Hybrid) :
    hybrid.options.Nodup := by
  rw [← hybrid.layOut_options]
  exact nodup_layOut _

/-- Options are in the printing order of all their colors. -/
theorem pairwise_options
    (hybrid : Hybrid) :
    hybrid.options.Pairwise fun left right =>
      (left.compareOptions hybrid.color right).isLE := by
  obtain ⟨given, shape⟩ := hybrid.laidOut
  have sameColors : hybrid.color = unionColor given.eraseDups := by
    rw [color, ← shape]
    exact ColorSet.unionAll_eq_of_perm ((perm_layOut given).map _)
  rw [sameColors, ← shape]
  exact pairwise_arrange _ _

/-- No option comes after the Phyrexian pip. -/
theorem eq_phyrexian_of_isLE
    {whole : ColorSet}
    {option : PureSymbol}
    (after : (PureSymbol.phyrexian.compareOptions whole option).isLE) :
    option = .phyrexian := by
  by_contra other
  have notSame : (option == .phyrexian) = false := beq_false_of_ne other
  have last : compare (PureSymbol.phyrexian == .phyrexian) false = .gt := by
    decide
  rw [PureSymbol.compareOptions, notSame, last] at after
  exact absurd after Bool.false_ne_true

/-- The Phyrexian pip comes last wherever it is an option. -/
theorem getLast?_options
    {hybrid : Hybrid}
    (among : .phyrexian ∈ hybrid.options) :
    hybrid.options.getLast? = some .phyrexian := by
  obtain ⟨before, after, shape⟩ := List.mem_iff_append.1 among
  have sorted := hybrid.pairwise_options
  have distinct := hybrid.nodup_options
  rw [shape] at sorted distinct ⊢
  cases after with
  | nil => exact List.getLast?_concat
  | cons next rest =>
      have nextAfter := (List.pairwise_cons.1 (List.pairwise_append.1 sorted).2.1).1 next (.head _)
      rw [eq_phyrexian_of_isLE nextAfter] at distinct
      exact absurd (.head _) (List.nodup_cons.1 (List.nodup_append.1 distinct).2.1).1

/-- What a hybrid is, whatever the order and the repeats of the options that it was made of. -/
structure IsCanonicalOf
    (given : List PureSymbol)
    (hybrid : Hybrid) :
    Prop where
  made : Symbol.hybridOf (given.map .single) = .ok (.hybrid hybrid)
  sameOptions : ∀ option, option ∈ hybrid.options ↔ option ∈ given
  distinct : hybrid.options.Nodup
  phyrexianLast : .phyrexian ∈ given → hybrid.options.getLast? = some .phyrexian
  readBack : (∀ option ∈ given, option.IsLegible) →
    Symbol.ofText (String.ofList hybrid.token) = .ok (.hybrid hybrid) ∧
      Symbol.ofText (Symbol.hybrid hybrid).text = .ok (.hybrid hybrid)

/-- Options of which two are different make a hybrid in canonical form. -/
theorem exists_isCanonicalOf
    (several : ∃ one ∈ given, ∃ other ∈ given, one ≠ other) :
    ∃ hybrid, IsCanonicalOf given hybrid := by
  obtain ⟨hybrid, same⟩ := exists_of_several several
  refine ⟨hybrid, Symbol.hybridOf_single (ofOptions?_eq_some_iff.2 ⟨several, same⟩), same,
    hybrid.nodup_options, fun among => getLast?_options ((same _).2 among), fun legible => ?_⟩
  have symbolLegible : (Symbol.hybrid hybrid).IsLegible :=
    fun option member => legible option ((same option).1 member)
  constructor
  · rw [Symbol.ofText, String.toList_ofList]
    exact Symbol.read_token symbolLegible
  · rw [Symbol.ofText, Symbol.text, String.toList_ofList]
    exact Symbol.read_braced symbolLegible

/--
Lists that name two different options each make hybrids in canonical form.  The hybrids have the same
options exactly when the lists name the same ones, and exactly when they are written alike; their
options are then in the same order too.
-/
theorem exists_isCanonicalOf_both
    (leftSeveral : ∃ one ∈ left, ∃ other ∈ left, one ≠ other)
    (rightSeveral : ∃ one ∈ right, ∃ other ∈ right, one ≠ other) :
    ∃ leftHybrid rightHybrid,
      IsCanonicalOf left leftHybrid ∧ IsCanonicalOf right rightHybrid ∧
        (SameOptions leftHybrid rightHybrid ↔ ∀ option, option ∈ left ↔ option ∈ right) ∧
        (SameOptions leftHybrid rightHybrid ↔ leftHybrid.token = rightHybrid.token) ∧
        (SameOptions leftHybrid rightHybrid → leftHybrid.options = rightHybrid.options) := by
  obtain ⟨leftHybrid, leftCanonical⟩ := exists_isCanonicalOf leftSeveral
  obtain ⟨rightHybrid, rightCanonical⟩ := exists_isCanonicalOf rightSeveral
  refine ⟨leftHybrid, rightHybrid, leftCanonical, rightCanonical, ?_, ⟨?_, ?_⟩, ?_⟩
  · unfold SameOptions
    simp only [leftCanonical.sameOptions, rightCanonical.sameOptions]
  · intro same
    rw [eq_of_mem_iff same]
  · intro written
    rw [token_injective written]
    exact fun _ => Iff.rfl
  · intro same
    rw [eq_of_mem_iff same]

/-- Order and repeats are forgotten, and the Phyrexian pip goes last. -/
theorem exists_isCanonicalOf_both_two_white_phyrexian :
    let left : List PureSymbol := [.phyrexian, .pip .white, .generic .two, .pip .white]
    let right : List PureSymbol := [.generic .two, .phyrexian, .pip .white]
    (∃ one ∈ left, ∃ other ∈ left, one ≠ other) ∧
      (∃ one ∈ right, ∃ other ∈ right, one ≠ other) ∧
        ∃ leftHybrid rightHybrid,
          IsCanonicalOf left leftHybrid ∧ IsCanonicalOf right rightHybrid ∧
            leftHybrid.options = rightHybrid.options ∧
            rightHybrid.options.getLast? = some .phyrexian ∧
            Symbol.ofText (Symbol.hybrid leftHybrid).text = .ok (.hybrid rightHybrid) := by
  intro left right
  have leftSeveral : ∃ one ∈ left, ∃ other ∈ left, one ≠ other :=
    ⟨.phyrexian, .head _, .pip .white, .tail _ (.head _), by decide⟩
  have rightSeveral : ∃ one ∈ right, ∃ other ∈ right, one ≠ other :=
    ⟨.phyrexian, .tail _ (.head _), .pip .white, .tail _ (.tail _ (.head _)), by decide⟩
  have sameSet : ∀ option, option ∈ left ↔ option ∈ right := by
    intro option
    simp only [left, right, List.mem_cons, List.not_mem_nil, or_false]
    tauto
  have legible : ∀ option ∈ left, option.IsLegible := by
    decide +kernel
  obtain ⟨leftHybrid, rightHybrid, leftCanonical, rightCanonical, sameIff, -, sameOrder⟩ :=
    exists_isCanonicalOf_both leftSeveral rightSeveral
  have same := sameIff.2 sameSet
  refine ⟨leftSeveral, rightSeveral, leftHybrid, rightHybrid, leftCanonical, rightCanonical,
    sameOrder same, rightCanonical.phyrexianLast (.tail _ (.head _)), ?_⟩
  rw [← eq_of_mem_iff same]
  exact (leftCanonical.readBack legible).2

end Hybrid

end ManaCost
