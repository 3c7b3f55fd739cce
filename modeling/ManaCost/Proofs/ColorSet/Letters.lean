import Mathlib
import ManaCost.ColorSet.Lookup
import ManaCost.Proofs.ColorSet.Operand

namespace ManaCost

/-!
# Color sets by their letters

A text spells a color set when nothing but letters of colors is left in upper case, and the set it
spells depends on which letters these are only.  No name of a set spells one: each name has a
character that folds to no letter of a color, while a text of such letters folds to them.  The main
statement is `ColorSet.ofLetters_determined`.
-/

/-- A character is the letter of a color. -/
def IsColorLetter
    (character : Char) :
    Prop :=
  character ∈ ['W', 'U', 'B', 'R', 'G', 'C']

theorem isColorLetter_iff
    {character : Char} :
    IsColorLetter character ↔ ∃ color : Color, color.letter = character := by
  have listed : ['W', 'U', 'B', 'R', 'G', 'C'] = Color.all.map Color.letter := rfl
  rw [IsColorLetter, listed, List.mem_map]
  exact ⟨fun ⟨color, _, same⟩ => ⟨color, same⟩, fun ⟨color, same⟩ => ⟨color, color.mem_all, same⟩⟩

theorem isColorLetter_of_mem_map
    {colors : List Color}
    {character : Char}
    (member : character ∈ colors.map Color.letter) :
    IsColorLetter character := by
  obtain ⟨color, -, same⟩ := List.mem_map.1 member
  exact isColorLetter_iff.2 ⟨color, same⟩

namespace Color

/-- A single character is the text of a color only as its letter: names are longer. -/
theorem names_singleton_iff
    {character : Char}
    {color : Color} :
    (String.singleton character == String.singleton color.letter ||
        String.singleton character == color.name) = true ↔
      color.letter = character := by
  have longer : String.singleton character ≠ color.name := by
    intro same
    have letters := congrArg String.toList same
    rw [String.toList_singleton] at letters
    cases color <;> simp [name] at letters
  rw [Bool.or_eq_true, beq_iff_eq, beq_iff_eq, or_iff_left longer, String.singleton_inj, eq_comm]

theorem ofText_letter
    (color : Color) :
    ofText (String.singleton color.letter) = .ok color := by
  cases color <;> decide +kernel

theorem ofText_of_not_isColorLetter
    {character : Char}
    (strange : ¬IsColorLetter character) :
    ofText (String.singleton character) = .error (.unknownColor (String.singleton character)) := by
  have none : all.find? (fun color => String.singleton character == String.singleton color.letter ||
      String.singleton character == color.name) = none :=
    List.find?_eq_none.2 fun color _ names =>
      strange (isColorLetter_iff.2 ⟨color, names_singleton_iff.1 names⟩)
  simp only [ofText, none]

end Color

namespace Text

/-- A character of a positive code has that code only. -/
theorem eq_toNat_of_ofNat_eq
    {code : Nat}
    {character : Char}
    (positive : 0 < character.toNat)
    (made : Char.ofNat code = character) :
    code = character.toNat := by
  rw [← made, Char.toNat_ofNat] at positive ⊢
  split at positive
  · rename_i valid
    rw [if_pos valid]
  · exact absurd positive (Nat.lt_irrefl 0)

/-- Besides the letters of colors only their small letters become letters of colors. -/
theorem eq_letter_of_upperChar
    {character : Char}
    (colored : ∀ capital ∈ upperChar character, IsColorLetter capital) :
    ∃ color : Color, character = color.letter ∨ character = color.letter.toLower := by
  -- What the tables say of the six letters is checked entry by entry.
  have expansions : ∀ entry ∈ upperExpansions,
      ∃ code ∈ entry.2, Char.ofNat code ∉ ['W', 'U', 'B', 'R', 'G', 'C'] := by
    decide +kernel
  have runs : ∀ run ∈ upperRuns, ∀ color ∈ Color.all,
      run.holds ((color.letter.toNat : Int) - run.shift).toNat = true →
        ((color.letter.toNat : Int) - run.shift).toNat = color.letter.toLower.toNat := by
    decide +kernel
  unfold upperChar at colored
  cases expanded : upperExpansions.lookup character.toNat with
  | some expansion =>
      obtain ⟨before, after, table, -⟩ := List.lookup_eq_some_iff.1 expanded
      obtain ⟨code, member, strange⟩ :=
        expansions (character.toNat, expansion) (by simp [table])
      simp only [expanded, List.mem_map, forall_exists_index, and_imp,
        forall_apply_eq_imp_iff₂] at colored
      exact absurd (colored code member) strange
  | none =>
      cases found : upperRuns.find? (CaseRun.holds · character.toNat) with
      | some run =>
          simp only [expanded, found, List.mem_singleton, forall_eq] at colored
          obtain ⟨color, same⟩ := isColorLetter_iff.1 colored
          have positive : 0 < color.letter.toNat := by cases color <;> decide
          have code := eq_toNat_of_ofNat_eq positive same.symm
          have source : character.toNat = ((color.letter.toNat : Int) - run.shift).toNat := by
            omega
          have holds : run.holds character.toNat = true :=
            List.find?_some (p := (CaseRun.holds · character.toNat)) found
          have small := runs run (List.mem_of_find?_eq_some found) color color.mem_all
          rw [← source] at small
          exact ⟨color, .inr (Char.toNat_inj.1 (small holds))⟩
      | none =>
          simp only [expanded, found, List.mem_singleton, forall_eq] at colored
          obtain ⟨color, same⟩ := isColorLetter_iff.1 colored
          exact ⟨color, .inl same.symm⟩

/-- A text that becomes letters of colors folds to their small letters. -/
theorem exists_letter_of_mem_caseless
    {text : List Char}
    {folded : Char}
    (colored : ∀ capital ∈ upper text, IsColorLetter capital)
    (member : folded ∈ caseless text) :
    ∃ color : Color, folded = color.letter.toLower := by
  have foldings : ∀ color ∈ Color.all,
      foldChar color.letter = [color.letter.toLower] ∧
        foldChar color.letter.toLower = [color.letter.toLower] := by
    decide +kernel
  obtain ⟨character, held, folds⟩ := List.mem_flatMap.1 member
  obtain ⟨color, written⟩ := eq_letter_of_upperChar fun capital capitalized =>
    colored capital (List.mem_flatMap.2 ⟨character, held, capitalized⟩)
  obtain ⟨ofCapital, ofSmall⟩ := foldings color color.mem_all
  rcases written with rfl | rfl
  · exact ⟨color, List.mem_singleton.1 (ofCapital ▸ folds)⟩
  · exact ⟨color, List.mem_singleton.1 (ofSmall ▸ folds)⟩

end Text

namespace ColorSet

variable {text : String} {set : ColorSet}

/-- Every name of a set has a character that folds to no letter of a color. -/
theorem exists_strange_of_mem_aliases
    {name : String}
    (member : name ∈ set.aliases) :
    ∃ folded ∈ Text.caseless name.toList, ∀ color : Color, folded ≠ color.letter.toLower := by
  have decided : ∀ set ∈ all, ∀ name ∈ set.aliases,
      (Text.caseless name.toList).any fun folded =>
        Color.all.all fun color => folded != color.letter.toLower := by
    decide +kernel
  have strange := decided set set.mem_all name member
  simp only [List.any_eq_true, List.all_eq_true, bne_iff_ne] at strange
  obtain ⟨folded, held, different⟩ := strange
  exact ⟨folded, held, fun color => different color color.mem_all⟩

/-- No name of a set is spelled with letters of colors. -/
theorem exists_not_isColorLetter_of_ofAlias
    (named : ofAlias text = .ok set) :
    ∃ letter ∈ Text.upper text.toList, ¬IsColorLetter letter := by
  by_contra colored
  push Not at colored
  unfold ofAlias at named
  split at named
  · rename_i found lookedUp
    have matched := List.find?_some lookedUp
    obtain ⟨name, member, same⟩ := List.any_eq_true.1 matched
    obtain ⟨folded, held, strange⟩ := exists_strange_of_mem_aliases member
    rw [eq_of_beq same] at held
    obtain ⟨color, small⟩ := Text.exists_letter_of_mem_caseless colored held
    exact strange color small
  · cases named

/-- Letters are letters of colors up to the first one that is not. -/
theorem exists_colors_or_strange
    (letters : List Char) :
    (∃ colors : List Color, letters = colors.map Color.letter) ∨
      ∃ colors : List Color, ∃ letter after,
        letters = colors.map Color.letter ++ letter :: after ∧ ¬IsColorLetter letter := by
  induction letters with
  | nil => exact .inl ⟨[], rfl⟩
  | cons first rest inductionHypothesis =>
      by_cases colored : IsColorLetter first
      · obtain ⟨color, rfl⟩ := isColorLetter_iff.1 colored
        rcases inductionHypothesis with ⟨colors, rfl⟩ | ⟨colors, letter, after, rfl, strange⟩
        · exact .inl ⟨color :: colors, rfl⟩
        · exact .inr ⟨color :: colors, letter, after, rfl, strange⟩
      · exact .inr ⟨[], first, rest, rfl, colored⟩

theorem mapM_ofText_letters
    (colors : List Color) :
    (colors.map Color.letter).mapM (fun letter => Color.ofText (String.singleton letter)) =
      .ok colors := by
  have each : (fun letter => Color.ofText (String.singleton letter)) ∘ Color.letter =
      fun color => pure (id color) :=
    funext Color.ofText_letter
  rw [List.mapM_map, each, List.mapM_pure, List.map_id]
  rfl

theorem ofLetters_of_letters
    {colors : List Color}
    (spelled : Text.upper text.toList = colors.map Color.letter) :
    ofLetters text = .ok (Operand.union [.several colors]) := by
  rw [ofLetters, spelled, mapM_ofText_letters]
  change ofOperands [.several colors] = _
  exact ofOperands_eq _

theorem ofLetters_of_strange
    {colors : List Color}
    {letter : Char}
    {after : List Char}
    (spelled : Text.upper text.toList = colors.map Color.letter ++ letter :: after)
    (strange : ¬IsColorLetter letter) :
    ofLetters text = .error (.unknownColor (String.singleton letter)) := by
  rw [ofLetters, spelled, List.mapM_append, mapM_ofText_letters, List.mapM_cons,
    Color.ofText_of_not_isColorLetter strange]
  rfl

/-- Every text spells a set or is refused for its first strange letter. -/
theorem ofLetters_cases
    (text : String) :
    (∃ colors : List Color, Text.upper text.toList = colors.map Color.letter ∧
        ofLetters text = .ok (Operand.union [.several colors])) ∨
      ∃ colors : List Color, ∃ letter after,
        Text.upper text.toList = colors.map Color.letter ++ letter :: after ∧
          ¬IsColorLetter letter ∧
            ofLetters text = .error (.unknownColor (String.singleton letter)) := by
  rcases exists_colors_or_strange (Text.upper text.toList) with
    ⟨colors, spelled⟩ | ⟨colors, letter, after, spelled, strange⟩
  · exact .inl ⟨colors, spelled, ofLetters_of_letters spelled⟩
  · exact .inr ⟨colors, letter, after, spelled, strange, ofLetters_of_strange spelled strange⟩

/-- A text spells a set when it becomes nothing but letters of colors. -/
theorem exists_ofLetters_iff :
    (∃ set, ofLetters text = .ok set) ↔
      ∀ letter ∈ Text.upper text.toList, IsColorLetter letter := by
  rcases ofLetters_cases text with
    ⟨colors, spelled, accepted⟩ | ⟨colors, letter, after, spelled, strange, refused⟩
  · refine iff_of_true ⟨_, accepted⟩ fun letter member => ?_
    rw [spelled] at member
    exact isColorLetter_of_mem_map member
  · refine iff_of_false ?_ fun colored => strange (colored letter (by simp [spelled]))
    rintro ⟨set, accepted⟩
    cases refused.symm.trans accepted

/-- A text that spells a set spells that of the colors whose letters occur. -/
theorem holdsExactly_of_ofLetters
    (accepted : ofLetters text = .ok set) :
    set.HoldsExactly {color | color.letter ∈ Text.upper text.toList} := by
  rcases ofLetters_cases text with ⟨colors, spelled, made⟩ | ⟨_, _, _, _, _, refused⟩
  · obtain rfl := Except.ok.inj (made.symm.trans accepted)
    refine holdsExactly_iff.2 fun color => ?_
    rw [Set.mem_ofPred_eq, spelled, List.mem_map_of_injective Color.letter_injective,
      Operand.mem_union_iff]
    simp [Operand.namedIn, Operand.named]
  · cases refused.symm.trans accepted

/-- A letter is the first of several that is no letter of a color. -/
def IsFirstStrange
    (letters : List Char)
    (letter : Char) :
    Prop :=
  ∃ before after, letters = before ++ letter :: after ∧
    (∀ earlier ∈ before, IsColorLetter earlier) ∧ ¬IsColorLetter letter

/-- Letters have one first strange letter at most. -/
theorem IsFirstStrange.unique
    {letters : List Char}
    {left right : Char}
    (leftFirst : IsFirstStrange letters left)
    (rightFirst : IsFirstStrange letters right) :
    left = right := by
  obtain ⟨leftBefore, leftAfter, leftShape, leftColored, leftStrange⟩ := leftFirst
  obtain ⟨rightBefore, rightAfter, rightShape, rightColored, rightStrange⟩ := rightFirst
  rcases List.append_eq_append_iff.1 (leftShape.symm.trans rightShape) with
    ⟨between, shape, rest⟩ | ⟨between, shape, rest⟩
  · cases between with
    | nil => exact (List.cons.inj rest).1
    | cons first others =>
        obtain ⟨rfl, -⟩ := List.cons.inj rest
        exact absurd (rightColored left (by simp [shape])) leftStrange
  · cases between with
    | nil => exact (List.cons.inj rest).1.symm
    | cons first others =>
        obtain ⟨rfl, -⟩ := List.cons.inj rest
        exact absurd (leftColored right (by simp [shape])) rightStrange

/-- A text is refused for the first letter that is no letter of a color. -/
theorem ofLetters_eq_error_iff
    {fault : Fault} :
    ofLetters text = .error fault ↔
      ∃ letter, IsFirstStrange (Text.upper text.toList) letter ∧
        fault = .unknownColor (String.singleton letter) := by
  rcases ofLetters_cases text with
    ⟨colors, spelled, accepted⟩ | ⟨colors, letter, after, spelled, strange, refused⟩
  · refine iff_of_false ?_ ?_
    · intro refused
      cases accepted.symm.trans refused
    · rintro ⟨letter, ⟨before, after, shape, -, strange⟩, -⟩
      exact strange (exists_ofLetters_iff.1 ⟨_, accepted⟩ letter (by simp [shape]))
  · have first : IsFirstStrange (Text.upper text.toList) letter :=
      ⟨_, after, spelled, fun _ => isColorLetter_of_mem_map, strange⟩
    rw [refused]
    constructor
    · intro same
      exact ⟨letter, first, (Except.error.inj same).symm⟩
    · rintro ⟨other, otherFirst, rfl⟩
      rw [first.unique otherFirst]

/-- Texts of the same letters spell the same set or none. -/
theorem toOption_ofLetters_eq
    {other : String}
    (same : ∀ letter, letter ∈ Text.upper text.toList ↔ letter ∈ Text.upper other.toList) :
    (ofLetters text).toOption = (ofLetters other).toOption := by
  have together : (∃ set, ofLetters text = .ok set) ↔ ∃ set, ofLetters other = .ok set := by
    rw [exists_ofLetters_iff, exists_ofLetters_iff]
    simp only [same]
  cases read : ofLetters text with
  | ok set =>
      obtain ⟨otherSet, otherRead⟩ := together.1 ⟨set, read⟩
      rw [otherRead]
      refine congrArg some (ext_mem fun color => ?_)
      rw [(holdsExactly_of_ofLetters read).mem_iff, (holdsExactly_of_ofLetters otherRead).mem_iff]
      exact same color.letter
  | error fault =>
      cases otherRead : ofLetters other with
      | ok otherSet =>
          obtain ⟨set, accepted⟩ := together.2 ⟨otherSet, otherRead⟩
          cases read.symm.trans accepted
      | error otherFault => rfl

/-- One text is another with its letters reordered, repeated or changed in case. -/
inductive Respells : List Char → List Char → Prop where
  | reordered {left right : List Char} (same : left.Perm right) : Respells left right
  | repeated {letter : Char} {letters : List Char} (held : letter ∈ letters) :
      Respells letters (letter :: letters)
  | recased {left right : Char} {letters : List Char}
      (same : Text.upperChar left = Text.upperChar right) :
      Respells (left :: letters) (right :: letters)
  | back {left right : List Char} (respells : Respells left right) : Respells right left
  | trans {left middle right : List Char} (first : Respells left middle)
      (second : Respells middle right) : Respells left right

/-- No way of respelling a text changes its set of letters. -/
theorem Respells.mem_upper_iff
    {left right : List Char}
    (respells : Respells left right)
    (letter : Char) :
    letter ∈ Text.upper left ↔ letter ∈ Text.upper right := by
  induction respells with
  | reordered same => simp only [Text.upper, List.mem_flatMap, same.mem_iff]
  | repeated held =>
      simp only [Text.upper, List.flatMap_cons, List.mem_append]
      exact ⟨.inr, fun either =>
        either.elim (fun here => List.mem_flatMap.2 ⟨_, held, here⟩) id⟩
  | recased same => simp only [Text.upper, List.flatMap_cons, same]
  | back _ inductionHypothesis => exact inductionHypothesis.symm
  | trans _ _ firstHypothesis secondHypothesis => exact firstHypothesis.trans secondHypothesis

theorem not_ofLetters_of_ofAlias
    {spelled : ColorSet}
    (named : ofAlias text = .ok set) :
    ofLetters text ≠ .ok spelled := by
  intro accepted
  obtain ⟨letter, member, strange⟩ := exists_not_isColorLetter_of_ofAlias named
  exact strange (exists_ofLetters_iff.1 ⟨spelled, accepted⟩ letter member)

/-- Looking a text up finds whatever it names or spells. -/
theorem ofText_eq_ok_iff :
    ofText text = .ok set ↔ ofAlias text = .ok set ∨ ofLetters text = .ok set := by
  cases named : ofAlias? text with
  | some found =>
      have aliased : ofAlias text = .ok found := by rw [ofAlias, named]
      have lookedUp : ofText text = .ok found := by rw [ofText, named]
      rw [lookedUp, aliased, or_iff_left (not_ofLetters_of_ofAlias aliased)]
  | none =>
      have unnamed : ofAlias text = .error (.unknownColorSet text) := by rw [ofAlias, named]
      rw [unnamed, or_iff_right (by simp), ofText, named]
      cases ofLetters text <;> simp

/--
Reading letters succeeds exactly on texts that become nothing but letters of colors in upper case,
and gives the set of the colors whose letters occur; any other text is refused for the first strange
letter.  Only the set of letters counts, not their order, number and case.  Where a text both names
and spells a set it is one set, so that looking it up finds whatever either of them finds.
-/
theorem ofLetters_determined
    (text : String) :
    ((∃ set, ofLetters text = .ok set) ↔
        ∀ letter ∈ Text.upper text.toList, IsColorLetter letter) ∧
      (∀ set, ofLetters text = .ok set →
          set.HoldsExactly {color | color.letter ∈ Text.upper text.toList}) ∧
        (∀ fault, ofLetters text = .error fault ↔
            ∃ letter, IsFirstStrange (Text.upper text.toList) letter ∧
              fault = .unknownColor (String.singleton letter)) ∧
          (∀ other : String,
              (∀ letter, letter ∈ Text.upper text.toList ↔ letter ∈ Text.upper other.toList) →
                (ofLetters text).toOption = (ofLetters other).toOption) ∧
            (∀ other : String, Respells text.toList other.toList →
                (ofLetters text).toOption = (ofLetters other).toOption) ∧
              (∀ named spelled, ofAlias text = .ok named → ofLetters text = .ok spelled →
                  named = spelled) ∧
                ∀ set, ofText text = .ok set ↔ ofAlias text = .ok set ∨ ofLetters text = .ok set :=
  ⟨exists_ofLetters_iff, fun _ => holdsExactly_of_ofLetters, fun _ => ofLetters_eq_error_iff,
    fun _ => toOption_ofLetters_eq, fun _ respells => toOption_ofLetters_eq respells.mem_upper_iff,
    fun _ _ named accepted => absurd accepted (not_ofLetters_of_ofAlias named),
    fun _ => ofText_eq_ok_iff⟩

/-- White and blue may be written in either order and case, and more than once. -/
theorem ofLetters_determined_white_blue :
    ofLetters "wU" = .ok (single .white ∪ single .blue) ∧
      (single .white ∪ single .blue).HoldsExactly
          {color | color.letter ∈ Text.upper "wU".toList} ∧
        Respells "wU".toList "UWw".toList ∧
          (ofLetters "wU").toOption = (ofLetters "UWw").toOption ∧
            ofText "wU" = .ok (single .white ∪ single .blue) := by
  have accepted : ofLetters "wU" = .ok (single .white ∪ single .blue) := by decide +kernel
  have recased : Text.upperChar 'w' = Text.upperChar 'W' := by decide +kernel
  have respells : Respells ['w', 'U'] ['U', 'W', 'w'] :=
    .trans (.repeated (.head _)) <| .trans (.recased recased) <|
      .reordered (by decide)
  obtain ⟨-, holds, -, -, same, -, lookedUp⟩ := ofLetters_determined "wU"
  exact ⟨accepted, holds _ accepted, respells, same "UWw" respells,
    (lookedUp _).2 (.inr accepted)⟩

/-- The letter is reported in upper case, where one character may have become two. -/
example : ofLetters "wßx" = .error (.unknownColor "S") := by
  decide +kernel

end ColorSet

end ManaCost
