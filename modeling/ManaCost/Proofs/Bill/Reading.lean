import ManaCost.Proofs.Bill.Total
import ManaCost.Proofs.Cost.Reading

namespace ManaCost

/-!
# Bills read from texts

The main statements are `Bill.ofText_eq_ok_iff_spells`, which says what texts are read and what the
others are refused with, and `Bill.ofText_append`, by which a text may be read in two parts.
-/

namespace Bill

theorem ofText_eq_ok_iff
    {text : String}
    {bill : Bill} :
    ofText text = .ok bill ↔
      ∃ symbols, Spells text.toList symbols ∧ classify (.ofSymbols symbols) = bill := by
  rw [ofText_eq]
  constructor
  · intro isRead
    cases outcome : readGroups text.toList 0 none text.toList with
    | error fault => simp [outcome] at isRead
    | ok symbols =>
        rw [outcome] at isRead
        exact ⟨symbols, (readGroups_eq_ok_iff _).1 outcome, Except.ok.inj isRead⟩
  · rintro ⟨symbols, spells, rfl⟩
    rw [(readGroups_eq_ok_iff _).2 spells]

/--
A text is read when it is made of groups that write symbols, as the bill that collects these symbols
in order.  Any other text is refused with its first fault.
-/
theorem ofText_eq_ok_iff_spells
    (text : String) :
    (∀ bill, ofText text = .ok bill ↔
      ∃ symbols, Spells text.toList symbols ∧ collect (.ofSymbols symbols) .plain = .ok bill) ∧
      ∀ fault, ofText text = .error fault ↔
        (∀ symbols, ¬Spells text.toList symbols) ∧ Refuses text.toList fault := by
  constructor
  · intro bill
    simp only [ofText_eq_ok_iff, collect_ofSymbols, Except.ok.injEq]
  · intro fault
    rw [← readGroups_eq_error_iff, ofText_eq]
    cases readGroups text.toList 0 none text.toList <;> simp

/-- Texts that spell symbols spell them one after another. -/
theorem spells_append
    {first second : List Char}
    {firstSymbols secondSymbols : List Symbol}
    (firstSpells : Spells first firstSymbols)
    (secondSpells : Spells second secondSymbols) :
    Spells (first ++ second) (firstSymbols ++ secondSymbols) := by
  obtain ⟨firstTokens, firstUnbraced, rfl, firstWrites⟩ := firstSpells
  obtain ⟨secondTokens, secondUnbraced, rfl, secondWrites⟩ := secondSpells
  exact ⟨firstTokens ++ secondTokens, List.forall_mem_append.2 ⟨firstUnbraced, secondUnbraced⟩,
    grouped_append firstTokens secondTokens, List.rel_append firstWrites secondWrites⟩

/--
Two texts that are read, and whose generic amounts add up without rounding, are read together as the
sum of what they are read as on their own.
-/
theorem ofText_append
    {first second : String}
    {firstBill secondBill : Bill}
    (firstRead : ofText first = .ok firstBill)
    (secondRead : ofText second = .ok secondBill)
    (addUp : ∀ symbols, Spells (first ++ second).toList symbols →
      Amount.AddUp (symbols.filterMap Symbol.genericAmount?)) :
    ofText (first ++ second) = .ok (firstBill.add secondBill) := by
  obtain ⟨firstSymbols, firstSpells, rfl⟩ := ofText_eq_ok_iff.1 firstRead
  obtain ⟨secondSymbols, secondSpells, rfl⟩ := ofText_eq_ok_iff.1 secondRead
  have spells := spells_append firstSpells secondSpells
  rw [← String.toList_append] at spells
  refine ofText_eq_ok_iff.2 ⟨_, spells, ?_⟩
  rw [Cost.ofSymbols_append (addUp _ spells), add_eq, cost_classify, cost_classify]

/-- Halves on both sides of a cut pair up. -/
theorem ofText_append_halves :
    ∃ firstBill secondBill,
      ofText "{½}{HW}{X}" = .ok firstBill ∧
        ofText "{0}{HW}{1½}" = .ok secondBill ∧
        (∀ symbols, Spells ("{½}{HW}{X}" ++ "{0}{HW}{1½}").toList symbols →
          Amount.AddUp (symbols.filterMap Symbol.genericAmount?)) ∧
        ofText ("{½}{HW}{X}" ++ "{0}{HW}{1½}") = .ok (firstBill.add secondBill) ∧
        (firstBill.add secondBill).cost.text = "{X}{2}{W}" := by
  let oneAndHalf : Amount := .ofDecimal 15 (-1)
  let firstBill := classify (.ofSymbols [.generic .half, .half .white, .var .x])
  let secondBill := classify (.ofSymbols [.half .white, .generic oneAndHalf])
  have firstRead : ofText "{½}{HW}{X}" = .ok firstBill := by
    decide +kernel
  have secondRead : ofText "{0}{HW}{1½}" = .ok secondBill := by
    decide +kernel
  have isRead :
      readGroups [] 0 none ("{½}{HW}{X}" ++ "{0}{HW}{1½}").toList =
        .ok [.generic .half, .half .white, .var .x, .generic .zero, .half .white,
          .generic oneAndHalf] := by
    decide +kernel
  have addUp : ∀ symbols, Spells ("{½}{HW}{X}" ++ "{0}{HW}{1½}").toList symbols →
      Amount.AddUp (symbols.filterMap Symbol.genericAmount?) := by
    intro symbols spells
    obtain rfl := Except.ok.inj (isRead.symm.trans ((readGroups_eq_ok_iff []).2 spells))
    exact ⟨by decide +kernel, .inr (by decide +kernel)⟩
  have written : (firstBill.add secondBill).cost.text = "{X}{2}{W}" := by
    decide +kernel
  exact ⟨firstBill, secondBill, firstRead, secondRead, addUp,
    ofText_append firstRead secondRead addUp, written⟩

end Bill

end ManaCost
