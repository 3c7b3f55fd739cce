import Mathlib
import ManaCost.Proofs.Cost.Worth

namespace ManaCost.Cost

/-!
# What the queries of a sum tell

Value, colors and devotion of a cost are read off its symbols one by one.  A sum has the symbols of
both costs, except that half pips of one color that both have are one pip of the sum: `pips_add`.
A pip has the value and the colors of two half pips, but it is one symbol.  So values and colors
lose nothing (`manaValue_add`, `color_add`), while devotion loses one for each such pair
(`devotion_add`).
-/

variable {cost left right : Cost}

/-- The symbols of a cost that are not generic, with repeats. -/
def pips
    (cost : Cost) :
    Multiset Symbol :=
  (cost.symbols : Multiset Symbol).filter fun symbol => symbol.isGeneric = false

/-- The colors of which two costs both have half a pip. -/
def sharedHalves
    (left right : Cost) :
    Finset Color :=
  Color.all.toFinset.filter fun color =>
    left.contains (.half color) ∧ right.contains (.half color)

theorem contains_iff
    {symbol : Symbol} :
    cost.contains symbol = true ↔ 0 < cost.count symbol := by
  rw [contains, List.any_eq_true]
  constructor
  · rintro ⟨entry, member, same⟩
    obtain ⟨positive, counted⟩ := mem_entries_iff.1 member
    rwa [← eq_of_beq same, counted]
  · intro held
    exact ⟨(symbol, cost.count symbol), mem_entries_iff.2 ⟨held, rfl⟩, beq_self_eq_true symbol⟩

theorem contains_eq_false_iff
    {symbol : Symbol} :
    cost.contains symbol = false ↔ cost.count symbol = 0 := by
  rw [← Bool.not_eq_true, contains_iff, Nat.pos_iff_ne_zero, not_not]

theorem mem_sharedHalves
    {color : Color} :
    color ∈ left.sharedHalves right ↔
      left.contains (.half color) = true ∧ right.contains (.half color) = true := by
  simp [sharedHalves, Color.mem_all]

/-- A color is shared once when the half pips of both costs make a pair. -/
theorem count_sharedHalves
    (left right : Cost)
    (color : Color) :
    (left.sharedHalves right).val.count color =
      (left.count (.half color) + right.count (.half color)) / 2 := by
  have leftFew := left.count_half_le_one color
  have rightFew := right.count_half_le_one color
  rw [Multiset.count_eq_of_nodup (left.sharedHalves right).nodup]
  simp only [Finset.mem_val, mem_sharedHalves, contains_iff]
  split <;> omega

theorem count_pips
    (cost : Cost)
    {symbol : Symbol}
    (notGeneric : symbol.isGeneric = false) :
    cost.pips.count symbol = cost.count symbol := by
  rw [pips, Multiset.count_filter, if_pos notGeneric, Multiset.coe_count, count_symbols]

theorem mem_pips
    {symbol : Symbol} :
    symbol ∈ cost.pips ↔ symbol.isGeneric = false ∧ symbol ∈ cost.symbols := by
  rw [pips, Multiset.mem_filter, Multiset.mem_coe, and_comm]

theorem count_map_of_ne
    {made : Color → Symbol}
    {symbol : Symbol}
    (other : ∀ color, made color ≠ symbol)
    (colors : Multiset Color) :
    (colors.map made).count symbol = 0 := by
  refine Multiset.count_eq_zero.2 fun member => ?_
  obtain ⟨color, -, same⟩ := Multiset.mem_map.1 member
  exact other color same

/-- A sum has the symbols of both costs, with one pip for each pair of half pips. -/
theorem pips_add
    (left right : Cost) :
    (left.add right).pips + 2 • (left.sharedHalves right).val.map Symbol.half =
      left.pips + right.pips + (left.sharedHalves right).val.map Symbol.pip := by
  have halfInjective : Function.Injective Symbol.half := fun _ _ same => by simpa using same
  have pipInjective : Function.Injective Symbol.pip := fun _ _ same => by simpa using same
  refine Multiset.ext.2 fun symbol => ?_
  simp only [Multiset.count_add, Multiset.count_nsmul]
  cases kind : symbol.isGeneric with
  | true =>
      have noPip (cost : Cost) : cost.pips.count symbol = 0 := by
        rw [pips, Multiset.count_filter, if_neg (by simp [kind])]
      have noColor (made : Color → Symbol) (colored : ∀ color, (made color).isGeneric = false) :
          ((left.sharedHalves right).val.map made).count symbol = 0 :=
        count_map_of_ne (fun color same => by simp [← same, colored] at kind) _
      rw [noPip, noPip, noPip, noColor _ fun _ => rfl, noColor _ fun _ => rfl]
  | false =>
      rw [count_pips _ kind, count_pips _ kind, count_pips _ kind]
      by_cases isHalf : ∃ color, Symbol.half color = symbol
      · obtain ⟨color, rfl⟩ := isHalf
        rw [Multiset.count_map_eq_count' _ _ halfInjective, count_sharedHalves,
          count_map_of_ne (by simp), count_half_add]
        exact Nat.mod_add_div _ _
      · by_cases isPip : ∃ color, Symbol.pip color = symbol
        · obtain ⟨color, rfl⟩ := isPip
          rw [Multiset.count_map_eq_count' _ _ pipInjective, count_sharedHalves,
            count_map_of_ne (by simp), count_add left right rfl]
          rfl
        · rw [not_exists] at isHalf isPip
          rw [count_map_of_ne isHalf, count_map_of_ne isPip,
            count_add_of_ne left right kind isHalf isPip]

theorem mem_color
    {cost : Cost}
    {color : Color} :
    color ∈ cost.color ↔
      ∃ symbol : Symbol, symbol.isGeneric = false ∧ 0 < cost.count symbol ∧
        color ∈ symbol.color := by
  rw [Cost.color, Tally.color, ColorSet.mem_unionAll]
  constructor
  · rintro ⟨set, member, inside⟩
    obtain ⟨entry, held, rfl⟩ := List.mem_map.1 member
    obtain ⟨positive, counted⟩ := mem_entries_iff.1 held
    refine ⟨entry.1, ?_, counted ▸ positive, inside⟩
    by_contra generic
    rw [eq_of_mem_of_isGeneric held (Bool.eq_true_of_not_eq_false generic)] at inside
    exact ColorSet.not_mem_empty color inside
  · rintro ⟨symbol, -, held, inside⟩
    have member : (symbol, cost.count symbol) ∈ cost.entries := mem_entries_iff.2 ⟨held, rfl⟩
    exact ⟨symbol.color, List.mem_map.2 ⟨_, member, rfl⟩, inside⟩

theorem not_isGeneric_of_mem_color
    {symbol : Symbol}
    {color : Color}
    (inside : color ∈ symbol.color) :
    symbol.isGeneric = false := by
  rcases symbol with (atom | half | amount | name) | options
  case single.generic => exact absurd inside (ColorSet.not_mem_empty color)
  all_goals rfl

/-- Devotion counts the symbols of a color, repeats included. -/
theorem devotion_eq_countP_symbols
    (cost : Cost)
    (color : Color) :
    cost.devotion color = cost.symbols.countP fun symbol => color ∈ symbol.color := by
  have written (entries : Tally) :
      entries.foldr
          (fun entry others => if color ∈ entry.1.color then entry.2 + others else others) 0 =
        (entries.flatMap fun entry => List.replicate entry.2 entry.1).countP
          fun symbol => color ∈ symbol.color := by
    induction entries with
    | nil => rfl
    | cons entry rest inductionHypothesis =>
        by_cases inside : color ∈ entry.1.color <;>
          simp [inside, inductionHypothesis, List.countP_replicate]
  rw [devotion, written, symbols]

/-- Devotion counts the symbols of a color; generic mana has none. -/
theorem devotion_eq_countP
    (cost : Cost)
    (color : Color) :
    cost.devotion color = cost.pips.countP fun symbol => color ∈ symbol.color := by
  have colored (symbol : Symbol) :
      (color ∈ symbol.color ∧ symbol.isGeneric = false) = (color ∈ symbol.color) :=
    propext (and_iff_left_of_imp not_isGeneric_of_mem_color)
  rw [pips, Multiset.countP_filter, Multiset.countP_congr rfl fun symbol _ => colored symbol,
    Multiset.coe_countP, devotion_eq_countP_symbols]

/-- A cost has the colors to which it has devotion. -/
theorem mem_color_iff_devotion
    {color : Color} :
    color ∈ cost.color ↔ 0 < cost.devotion color := by
  rw [mem_color, devotion_eq_countP, Multiset.countP_pos]
  refine exists_congr fun symbol => ?_
  rw [mem_pips, ← List.count_pos_iff, count_symbols, and_assoc]

/-- The devotion of a sum is that of both costs, less one where two half pips become a pip. -/
theorem devotion_add
    (left right : Cost)
    (color : Color) :
    (left.add right).devotion color + (left.sharedHalves right).val.count color =
      left.devotion color + right.devotion color := by
  have shared (made : Color → Symbol) (colored : ∀ other, (made other).color = .single other) :
      ((left.sharedHalves right).val.map made).countP (fun symbol => color ∈ symbol.color) =
        (left.sharedHalves right).val.count color := by
    simp only [Multiset.countP_map, colored, ColorSet.mem_single]
    exact (Multiset.count_eq_card_filter_eq _ _).symm
  have counted :=
    congrArg (Multiset.countP fun symbol => color ∈ symbol.color) (pips_add left right)
  rw [Multiset.countP_add, Multiset.countP_add, Multiset.countP_add, Multiset.countP_nsmul,
    shared _ fun _ => rfl, shared _ fun _ => rfl] at counted
  rw [devotion_eq_countP, devotion_eq_countP, devotion_eq_countP]
  omega

/-- A cost with half a pip has devotion to its color. -/
theorem count_half_le_devotion
    (cost : Cost)
    (color : Color) :
    cost.count (.half color) ≤ cost.devotion color := by
  have ofColor : color ∈ (Symbol.half color).color := ColorSet.mem_single.2 rfl
  calc
    cost.count (.half color) =
        (cost.pips.filter fun symbol => color ∈ symbol.color).count (.half color) := by
      rw [Multiset.count_filter, if_pos ofColor, count_pips cost rfl]
    _ ≤ (cost.pips.filter fun symbol => color ∈ symbol.color).card := Multiset.count_le_card _ _
    _ = cost.devotion color := by
      rw [devotion_eq_countP, Multiset.countP_eq_card_filter]

/-- A sum has the colors of both costs. -/
theorem color_add
    (left right : Cost) :
    (left.add right).color = left.color ∪ right.color := by
  refine ColorSet.ext_mem fun color => ?_
  have devotion := devotion_add left right color
  have leftHalf := left.count_half_le_devotion color
  have rightHalf := right.count_half_le_devotion color
  rw [count_sharedHalves] at devotion
  rw [ColorSet.mem_union, mem_color_iff_devotion, mem_color_iff_devotion, mem_color_iff_devotion]
  omega

/-- Two half pips are worth what a pip is. -/
theorem steps_half_add_half :
    Amount.half.steps + Amount.half.steps = Amount.one.steps := by
  decide +kernel

theorem pipWorth_eq_matchedWorth
    (cost : Cost) :
    cost.pipWorth = matchedWorth cost.pips := by
  have within : ∀ symbol ∈ cost.pips, symbol ∈ cost.nonGenericSymbols := by
    intro symbol member
    obtain ⟨notGeneric, held⟩ := mem_pips.1 member
    rw [← List.count_pos_iff, count_symbols] at held
    exact mem_nonGenericSymbols.2 ⟨notGeneric, held⟩
  rw [matchedWorth_eq_sum within, pipWorth]
  refine Finset.sum_congr rfl fun symbol member => ?_
  rw [count_pips cost (mem_nonGenericSymbols.1 member).1]

/-- The symbols of a sum that are not generic are worth what those of both costs are. -/
theorem pipWorth_add
    (left right : Cost) :
    (left.add right).pipWorth = left.pipWorth + right.pipWorth := by
  let pairs := (left.sharedHalves right).card
  have repeated (made : Color → Symbol) (steps : ℕ∞)
      (same : ∀ color, (made color).manaValue.steps = steps) :
      matchedWorth ((left.sharedHalves right).val.map made) = pairs * steps := by
    simp [matchedWorth, pairs, same]
  have halves := repeated .half Amount.half.steps fun _ => rfl
  have pips := repeated .pip Amount.one.steps fun _ => rfl
  have balance := congrArg matchedWorth (pips_add left right)
  simp only [matchedWorth_add, two_nsmul, ← pipWorth_eq_matchedWorth, halves, pips,
    ← steps_half_add_half, mul_add] at balance
  have finite : pairs * Amount.half.steps ≠ ⊤ := by
    rw [Amount.steps_half, ← Nat.cast_mul]
    exact ENat.natCast_ne_top _
  exact ENat.add_left_injective_of_ne_top (WithTop.add_ne_top.2 ⟨finite, finite⟩) balance

theorem mem_symbols_of_mem_entries
    {entry : Symbol × Nat}
    (member : entry ∈ cost.entries) :
    entry.1 ∈ cost.symbols := by
  obtain ⟨positive, counted⟩ := mem_entries_iff.1 member
  rwa [← List.count_pos_iff, count_symbols, counted]

theorem isExact_generic
    (exact : ∀ symbol ∈ cost.symbols, symbol.manaValue.IsExact) :
    cost.generic.IsExact := by
  rcases cost.filter_isGeneric_entries with single | ⟨-, nothing⟩
  · have member : (.generic cost.generic, 1) ∈ cost.entries :=
      List.mem_of_mem_filter (single ▸ List.mem_singleton_self _)
    exact exact _ (mem_symbols_of_mem_entries member)
  · rw [nothing]
    exact Amount.isExact_zero

/-- What a sum holds beside generic mana is from either cost, or a pip. -/
theorem mem_pips_add
    {symbol : Symbol}
    (member : symbol ∈ (left.add right).pips) :
    symbol ∈ left.symbols ∨ symbol ∈ right.symbols ∨ ∃ color, symbol = .pip color := by
  have inBoth := pips_add left right ▸ Multiset.mem_add.2 (.inl member)
  rcases Multiset.mem_add.1 inBoth with ofEither | made
  · rcases Multiset.mem_add.1 ofEither with ofLeft | ofRight
    · exact .inl (mem_pips.1 ofLeft).2
    · exact .inr (.inl (mem_pips.1 ofRight).2)
  · obtain ⟨color, -, same⟩ := Multiset.mem_map.1 made
    exact .inr (.inr ⟨color, same.symm⟩)

/-- Where a total is exact, a sum is worth what both costs are. -/
theorem worth_add
    (leftExact : left.generic.IsExact)
    (rightExact : right.generic.IsExact)
    (exact : Amount.IsExactTotal (left.worth + right.worth)) :
    (left.add right).worth = left.worth + right.worth := by
  have comes := comesTo_generic_add leftExact rightExact
  rw [worth_eq left, worth_eq right, add_add_add_comm] at exact ⊢
  rw [worth_eq, pipWorth_add]
  rcases exact with unbounded | below
  · by_cases generic : left.generic.steps + right.generic.steps = ⊤
    · rw [comes.infinite generic, Amount.steps_infinite, generic]
    · have pips := (ENat.add_eq_top.1 unbounded).resolve_left generic
      rw [pips, add_top, add_top]
  · rw [comes.steps_eq (.inr (le_self_add.trans_lt below))]

/-- The values in a sum of costs with exact values follow themselves.  They need not all be exact:
generic mana may be rounded when a hybrid symbol makes the total infinite. -/
theorem follows_of_mem_entries_add
    (leftExact : ∀ symbol ∈ left.symbols, symbol.manaValue.IsExact)
    (rightExact : ∀ symbol ∈ right.symbols, symbol.manaValue.IsExact)
    {entry : Symbol × Nat}
    (member : entry ∈ (left.add right).entries) :
    entry.1.manaValue.Follows entry.1.manaValue.steps := by
  cases kind : entry.1.isGeneric with
  | true =>
      rw [eq_of_mem_of_isGeneric member kind]
      exact (comesTo_generic_add (isExact_generic leftExact)
        (isExact_generic rightExact)).follows.itself
  | false =>
      apply Amount.follows_of_isExact
      rcases mem_pips_add (mem_pips.2 ⟨kind, mem_symbols_of_mem_entries member⟩) with
        inLeft | inRight | ⟨color, isPip⟩
      · exact leftExact _ inLeft
      · exact rightExact _ inRight
      · rw [isPip]
        exact Amount.isExact_one

/-- Where values are exact in total, the value of a sum is that of both costs together. -/
theorem manaValue_add
    (addUp : Amount.AddUp ((left.symbols ++ right.symbols).map Symbol.manaValue)) :
    (left.add right).manaValue = left.manaValue.add right.manaValue := by
  have exact : ∀ symbol ∈ left.symbols ++ right.symbols, symbol.manaValue.IsExact :=
    fun symbol member => addUp.exact _ (List.mem_map_of_mem member)
  obtain ⟨leftExact, rightExact⟩ := List.forall_mem_append.1 exact
  have total : Amount.IsExactTotal (left.worth + right.worth) := by
    have held := addUp.total
    rwa [List.map_append, List.map_append, List.sum_append, sum_steps_symbols,
      sum_steps_symbols] at held
  have comes (cost : Cost) (costExact : ∀ symbol ∈ cost.symbols, symbol.manaValue.IsExact) :
      cost.manaValue.ComesTo cost.worth :=
    comesTo_manaValue fun entry member =>
      Amount.follows_of_isExact (costExact _ (mem_symbols_of_mem_entries member))
  have sumComes : (left.add right).manaValue.ComesTo (left.worth + right.worth) := by
    rw [← worth_add (isExact_generic leftExact) (isExact_generic rightExact) total]
    exact comesTo_manaValue fun _ => follows_of_mem_entries_add leftExact rightExact
  exact sumComes.unique ((comes left leftExact).add (comes right rightExact)) total

end ManaCost.Cost
