import ManaCost.Proofs.Amount.Numeral
import ManaCost.Report.Json

namespace ManaCost.Report

/-!
# Reports decoded

A decoder of JSON texts that knows nothing of how reports are written: blanks may stand between all
parts, texts may hold any escapes, and numbers are left as they are written.  The main statement is
`decode?_write`, by which every report is decoded from its text.
-/

/-- What a JSON text says. -/
inductive Decoded where
  | null
  | bool (value : Bool)
  | number (written : List Char)
  | text (value : String)
  | list (items : List Decoded)
  | record (fields : List (String × Decoded))

namespace Decoder

/-! ## The decoder -/

/-- A character that may stand between the parts of a text. -/
def isBlank
    (character : Char) :
    Bool :=
  character == ' ' || character == '\n' || character == '\r' || character == '\t'

/-- A text without the blanks in front of it. -/
def behindBlanks
    (text : List Char) :
    List Char :=
  text.dropWhile isBlank

/-- The value of a hexadecimal digit in either case. -/
def hexValue?
    (digit : Char) :
    Option Nat :=
  let code := digit.toNat
  if '0'.toNat ≤ code ∧ code ≤ '9'.toNat then
    some (code - '0'.toNat)
  else if 'a'.toNat ≤ code ∧ code ≤ 'f'.toNat then
    some (code - 'a'.toNat + 10)
  else if 'A'.toNat ≤ code ∧ code ≤ 'F'.toNat then
    some (code - 'A'.toNat + 10)
  else
    none

/-- The 16-bit unit of four hexadecimal digits. -/
def unit?
    (first second third fourth : Char) :
    Option Nat := do
  let first ← hexValue? first
  let second ← hexValue? second
  let third ← hexValue? third
  let fourth ← hexValue? fourth
  return ((first * 16 + second) * 16 + third) * 16 + fourth

/-- The code of the character that a letter behind a backslash stands for. -/
def escapeCode?
    (letter : Char) :
    Option Nat :=
  if letter = '"' ∨ letter = '\\' ∨ letter = '/' then
    some letter.toNat
  else if letter = 'b' then
    some 0x8
  else if letter = 'f' then
    some 0xC
  else if letter = 'n' then
    some 0xA
  else if letter = 'r' then
    some 0xD
  else if letter = 't' then
    some 0x9
  else
    none

/-- The codes of a text up to its closing quote, and what follows. -/
def codes? : List Char → Option (List Nat × List Char)
  | [] => none
  | '"' :: rest => some ([], rest)
  | '\\' :: 'u' :: first :: second :: third :: fourth :: rest =>
      match unit? first second third fourth, codes? rest with
      | some unit, some (codes, rest) => some (unit :: codes, rest)
      | _, _ => none
  | '\\' :: letter :: rest =>
      match escapeCode? letter, codes? rest with
      | some code, some (codes, rest) => some (code :: codes, rest)
      | _, _ => none
  | character :: rest =>
      if character.toNat < 0x20 then
        none
      else
        (codes? rest).map fun found => (character.toNat :: found.1, found.2)

/-- The characters of codes, where two 16-bit units may make one character together. -/
def characters? : List Nat → Option (List Char)
  | [] => some []
  | code :: rest =>
      if 0xD800 ≤ code ∧ code < 0xDC00 then
        match rest with
        | [] => none
        | low :: rest =>
            if 0xDC00 ≤ low ∧ low < 0xE000 then
              (characters? rest).map
                (Char.ofNat (0x10000 + (code - 0xD800) * 0x400 + (low - 0xDC00)) :: ·)
            else
              none
      else if code.isValidChar then
        (characters? rest).map (Char.ofNat code :: ·)
      else
        none

/-- A text behind its opening quote, and what follows its closing one. -/
def quoted?
    (text : List Char) :
    Option (String × List Char) := do
  let (codes, rest) ← codes? text
  let characters ← characters? codes
  return (String.ofList characters, rest)

/-- A character of a number or of a name. -/
def isWordChar
    (character : Char) :
    Bool :=
  character.isAlphanum || character == '+' || character == '-' || character == '.'

/-- What a number or a name stands for. -/
def ofWord?
    (word : List Char) :
    Option Decoded :=
  if word = "null".toList then
    some .null
  else if word = "true".toList then
    some (.bool true)
  else if word = "false".toList then
    some (.bool false)
  else if word = "Infinity".toList ∨
      word.head?.any (fun first => first.isDigit || first == '-') then
    some (.number word)
  else
    none

mutual

/-- The value at the beginning of a text, and what follows it. -/
def value? : Nat → List Char → Option (Decoded × List Char)
  | 0, _ => none
  | fuel + 1, text =>
      match behindBlanks text with
      | [] => none
      | first :: rest =>
          if first = '"' then
            (quoted? rest).map fun found => (.text found.1, found.2)
          else if first = '[' then
            match behindBlanks rest with
            | ']' :: rest => some (.list [], rest)
            | _ => (items? fuel rest).map fun found => (.list found.1, found.2)
          else if first = '{' then
            match behindBlanks rest with
            | '}' :: rest => some (.record [], rest)
            | _ => (fields? fuel rest).map fun found => (.record found.1, found.2)
          else
            (ofWord? ((first :: rest).takeWhile isWordChar)).map fun value =>
              (value, (first :: rest).dropWhile isWordChar)

/-- The items of a list up to its closing bracket, and what follows. -/
def items? : Nat → List Char → Option (List Decoded × List Char)
  | 0, _ => none
  | fuel + 1, text =>
      match value? fuel text with
      | none => none
      | some (item, rest) =>
          match behindBlanks rest with
          | ',' :: rest => (items? fuel rest).map fun found => (item :: found.1, found.2)
          | ']' :: rest => some ([item], rest)
          | _ => none

/-- The fields of a record up to its closing brace, and what follows. -/
def fields? : Nat → List Char → Option (List (String × Decoded) × List Char)
  | 0, _ => none
  | fuel + 1, text =>
      match behindBlanks text with
      | '"' :: rest =>
          match quoted? rest with
          | none => none
          | some (name, rest) =>
              match behindBlanks rest with
              | ':' :: rest =>
                  match value? fuel rest with
                  | none => none
                  | some (value, rest) =>
                      match behindBlanks rest with
                      | ',' :: rest =>
                          (fields? fuel rest).map fun found => ((name, value) :: found.1, found.2)
                      | '}' :: rest => some ([(name, value)], rest)
                      | _ => none
              | _ => none
      | _ => none

end

end Decoder

/-- What a text says as a whole.  No value takes more steps to read than the text has characters. -/
def decode?
    (text : String) :
    Option Decoded :=
  match Decoder.value? text.toList.length text.toList with
  | none => none
  | some (value, rest) => if Decoder.behindBlanks rest = [] then some value else none

namespace Json

mutual

/-- What a report says. -/
def decoded : Json → Decoded
  | .null => .null
  | .bool value => .bool value
  | .integer value => .number (toString value).toList
  | .amount value => .number (number value).toList
  | .text value => .text value
  | .list items => .list (decodedItems items)
  | .record fields => .record (decodedFields fields)

/-- What the items of a list say. -/
def decodedItems : List Json → List Decoded
  | [] => []
  | item :: rest => decoded item :: decodedItems rest

/-- What the fields of a record say. -/
def decodedFields : List (String × Json) → List (String × Decoded)
  | [] => []
  | (name, value) :: rest => (name, decoded value) :: decodedFields rest

end

end Json

/-! ## Texts -/

namespace Decoder

theorem hexValue?_digitChar :
    ∀ value < 16, hexValue? value.digitChar = some value := by
  decide

/-- A code of 16 bits has four hexadecimal digits. -/
theorem hexadecimal_four
    {code : Nat}
    (small : code < 0x10000) :
    Text.hexadecimal 4 code =
      [(code / 0x1000).digitChar, (code / 0x100 % 16).digitChar, (code / 0x10 % 16).digitChar,
        (code % 16).digitChar] := by
  have step {number : Nat} (large : 16 ≤ number) :
      Nat.toDigits 16 number = Nat.toDigits 16 (number / 16) ++ [(number % 16).digitChar] :=
    Nat.toDigits_of_base_le (by decide) large
  have last {number : Nat} (few : number < 16) : Nat.toDigits 16 number = [number.digitChar] :=
    Nat.toDigits_of_lt_base few
  rw [Text.hexadecimal]
  by_cases one : code < 0x10
  · rw [last one]
    simp [show code / 0x1000 = 0 by omega, show code / 0x100 % 16 = 0 by omega,
      show code / 0x10 % 16 = 0 by omega, show code % 16 = code by omega, List.replicate]
  by_cases two : code < 0x100
  · rw [step (by omega), last (by omega)]
    simp [show code / 0x1000 = 0 by omega, show code / 0x100 % 16 = 0 by omega,
      show code / 0x10 % 16 = code / 16 by omega, List.replicate]
  by_cases three : code < 0x1000
  · rw [step (by omega), step (by omega), last (by omega)]
    simp [show code / 0x1000 = 0 by omega, Nat.div_div_eq_div_mul,
      show code / 0x100 % 16 = code / 0x100 by omega]
  · rw [step (by omega), step (by omega), step (by omega), last (by omega)]
    simp [Nat.div_div_eq_div_mul]

theorem unit?_digitChars
    {code : Nat}
    (small : code < 0x10000) :
    unit? (code / 0x1000).digitChar (code / 0x100 % 16).digitChar (code / 0x10 % 16).digitChar
      (code % 16).digitChar = some code := by
  rw [unit?, hexValue?_digitChar _ (by omega), hexValue?_digitChar _ (by omega),
    hexValue?_digitChar _ (by omega), hexValue?_digitChar _ (by omega)]
  simp only [bind, Option.bind, pure, Option.some.injEq]
  omega

/-- The codes by which a character is written: its own, or those of two 16-bit units. -/
def codesOf
    (character : Char) :
    List Nat :=
  if character.toNat < 0x10000 then
    [character.toNat]
  else
    [0xD800 + (character.toNat - 0x10000) / 0x400, 0xDC00 + (character.toNat - 0x10000) % 0x400]

theorem codes?_escapedUnit
    {unit : Nat}
    (small : unit < 0x10000)
    {codes : List Nat}
    {text rest : List Char}
    (others : codes? text = some (codes, rest)) :
    codes? (Json.escapedUnit unit ++ text) = some (unit :: codes, rest) := by
  rw [Json.escapedUnit, hexadecimal_four small]
  simp only [List.cons_append, List.nil_append, codes?, unit?_digitChars small, others]

/-- An escaped character is read as its codes. -/
theorem codes?_escapedChar
    (character : Char)
    {codes : List Nat}
    {text rest : List Char}
    (others : codes? text = some (codes, rest)) :
    codes? (Json.escapedChar character ++ text) = some (codesOf character ++ codes, rest) := by
  have bound : character.toNat < 0x110000 := by
    have valid := character.valid
    simp only [UInt32.isValidChar, Nat.isValidChar] at valid
    change character.val.toNat < _
    omega
  simp only [Json.escapedChar]
  split
  · rename_i special
    rcases special with rfl | rfl <;> simp [codes?, escapeCode?, others, codesOf]
  rename_i notSpecial
  obtain ⟨notQuote, notBackslash⟩ := not_or.1 notSpecial
  split
  · rename_i isFeed
    subst isFeed
    simp [codes?, escapeCode?, others, codesOf]
  split
  · rename_i isReturn
    subst isReturn
    simp [codes?, escapeCode?, others, codesOf]
  split
  · rename_i isTab
    subst isTab
    simp [codes?, escapeCode?, others, codesOf]
  split
  · rename_i isBack
    simp [codes?, escapeCode?, others, codesOf, isBack]
  split
  · rename_i isForm
    simp [codes?, escapeCode?, others, codesOf, isForm]
  split
  · rename_i printable
    have few : character.toNat < 0x10000 := by omega
    have visible : ¬character.toNat < 0x20 := by omega
    simp [codes?, notBackslash, visible, others, codesOf, few]
  split
  · rename_i few
    rw [codes?_escapedUnit few others, codesOf, if_pos few]
    rfl
  · rename_i many
    rw [List.append_assoc, codes?_escapedUnit (by omega) (codes?_escapedUnit (by omega) others),
      codesOf, if_neg many]
    rfl

/-- The codes of a character are read as the character. -/
theorem characters?_codesOf
    (character : Char)
    {codes : List Nat}
    {text : List Char}
    (others : characters? codes = some text) :
    characters? (codesOf character ++ codes) = some (character :: text) := by
  have valid : character.toNat.isValidChar := character.valid
  have itself : Char.ofNat character.toNat = character := Char.ofNat_toNat character
  simp only [Nat.isValidChar] at valid
  unfold codesOf
  split
  · have notHigh : ¬(0xD800 ≤ character.toNat ∧ character.toNat < 0xDC00) := by omega
    have isValid : character.toNat.isValidChar := by
      simp only [Nat.isValidChar]
      omega
    rw [List.cons_append, List.nil_append, characters?.eq_def]
    simp [notHigh, isValid, others, itself]
  · rename_i many
    have high : 0xD800 ≤ 0xD800 + (character.toNat - 0x10000) / 0x400 ∧
        0xD800 + (character.toNat - 0x10000) / 0x400 < 0xDC00 := by
      omega
    have low : 0xDC00 ≤ 0xDC00 + (character.toNat - 0x10000) % 0x400 ∧
        0xDC00 + (character.toNat - 0x10000) % 0x400 < 0xE000 := by
      omega
    have together : 0x10000 + (0xD800 + (character.toNat - 0x10000) / 0x400 - 0xD800) * 0x400 +
        (0xDC00 + (character.toNat - 0x10000) % 0x400 - 0xDC00) = character.toNat := by
      omega
    simp only [List.cons_append, List.nil_append, characters?, if_pos high, if_pos low, others,
      together, itself, Option.map_some]

theorem codes?_escaped
    (text rest : List Char) :
    codes? (text.flatMap Json.escapedChar ++ '"' :: rest) = some (text.flatMap codesOf, rest) := by
  induction text with
  | nil => rfl
  | cons character others inductionHypothesis =>
      rw [List.flatMap_cons, List.append_assoc, codes?_escapedChar character inductionHypothesis,
        List.flatMap_cons]

theorem characters?_flatMap_codesOf
    (text : List Char) :
    characters? (text.flatMap codesOf) = some text := by
  induction text with
  | nil => rfl
  | cons character others inductionHypothesis =>
      exact characters?_codesOf character inductionHypothesis

/-- A quoted text is read back. -/
theorem quoted?_escaped
    (text : String)
    (rest : List Char) :
    quoted? (text.toList.flatMap Json.escapedChar ++ '"' :: rest) = some (text, rest) := by
  simp [quoted?, codes?_escaped, characters?_flatMap_codesOf]

/-! ## Words -/

/-- Nothing that follows belongs to a word. -/
def EndsWord
    (rest : List Char) :
    Prop :=
  ∀ first ∈ rest.head?, isWordChar first = false

theorem endsWord_cons
    {first : Char}
    (notWord : isWordChar first = false)
    (rest : List Char) :
    EndsWord (first :: rest) := by
  intro other same
  rwa [← Option.some.inj same]

/-- A word is read up to its end. -/
theorem span_word
    {word rest : List Char}
    (isWord : ∀ character ∈ word, isWordChar character = true)
    (ends : EndsWord rest) :
    (word ++ rest).takeWhile isWordChar = word ∧ (word ++ rest).dropWhile isWordChar = rest := by
  induction word with
  | nil =>
      cases rest with
      | nil => exact ⟨rfl, rfl⟩
      | cons first others =>
          have notWord := ends first rfl
          simp [notWord]
  | cons first others inductionHypothesis =>
      obtain ⟨isFirst, areOthers⟩ := List.forall_mem_cons.1 isWord
      obtain ⟨taken, left⟩ := inductionHypothesis areOthers
      simp [isFirst, taken, left]

/-- A word stands for something, and is made of characters of words. -/
structure IsWord
    (word : List Char)
    (value : Decoded) :
    Prop where
  isWordChar : ∀ character ∈ word, isWordChar character = true
  ofWord : ofWord? word = some value

theorem IsWord.ne_nil
    {word : List Char}
    {value : Decoded}
    (isWord : IsWord word value) :
    word ≠ [] := by
  rintro rfl
  exact absurd isWord.ofWord (by simp [ofWord?])

/-- A value that is a word is read up to the end of the word. -/
theorem value?_word
    {word rest : List Char}
    {value : Decoded}
    (isWord : IsWord word value)
    (ends : EndsWord rest)
    (fuel : Nat) :
    value? (fuel + 1) (word ++ rest) = some (value, rest) := by
  obtain ⟨taken, left⟩ := span_word isWord.isWordChar ends
  obtain ⟨first, others, rfl⟩ := List.exists_cons_of_ne_nil isWord.ne_nil
  have isFirst : isWordChar first = true := isWord.isWordChar first (.head others)
  have notBlank : isBlank first = false := by
    by_contra blank
    simp only [Bool.not_eq_false, isBlank, Bool.or_eq_true, beq_iff_eq] at blank
    rcases blank with ((rfl | rfl) | rfl) | rfl <;> exact absurd isFirst (by decide)
  have notOpening : first ≠ '"' ∧ first ≠ '[' ∧ first ≠ '{' := by
    refine ⟨?_, ?_, ?_⟩ <;>
      · rintro rfl
        exact absurd isFirst (by decide)
  have behind : behindBlanks (first :: (others ++ rest)) = first :: (others ++ rest) := by
    simp [behindBlanks, notBlank]
  rw [List.cons_append] at taken left ⊢
  simp only [value?, behind, if_neg notOpening.1, if_neg notOpening.2.1, if_neg notOpening.2.2,
    taken, left, isWord.ofWord, Option.map_some]

/-- Digits and the signs of numerals make a number when a digit or a minus sign comes first. -/
theorem isWord_number
    {first : Char}
    {others : List Char}
    (begins : first.isDigit = true ∨ first = '-')
    (plain : ∀ character ∈ first :: others,
      character.isDigit = true ∨ character ∈ Layout.signs) :
    IsWord (first :: others) (.number (first :: others)) where
  isWordChar := by
    intro character member
    rcases plain character member with digit | sign
    · simp [Decoder.isWordChar, Char.isAlphanum, digit]
    · have signs : ∀ sign ∈ Layout.signs, Decoder.isWordChar sign = true := by
        simp [Layout.signs, Decoder.isWordChar]
      exact signs character sign
  ofWord := by
    have notLetter (name : List Char) (letter : Char) (isName : name.head? = some letter)
        (notBegins : letter.isDigit = false ∧ letter ≠ '-') : first :: others ≠ name := by
      rintro rfl
      obtain rfl := Option.some.inj isName
      rcases begins with digit | rfl
      · exact Bool.false_ne_true (notBegins.1.symm.trans digit)
      · exact notBegins.2 rfl
    have number : (first :: others).head?.any
        (fun first => first.isDigit || first == '-') = true := by
      simpa using begins
    rw [ofWord?, if_neg (notLetter _ 'n' rfl (by decide)), if_neg (notLetter _ 't' rfl (by decide)),
      if_neg (notLetter _ 'f' rfl (by decide)), if_pos (.inr number)]

theorem isWord_digits
    {digits : List Char}
    (allDigits : Text.AllDigits digits)
    (some : digits ≠ []) :
    IsWord digits (.number digits) := by
  obtain ⟨first, others, rfl, digit⟩ := allDigits.exists_head some
  exact isWord_number (.inl digit) fun character member => .inl (allDigits character member)

theorem isWord_integer
    (value : Int) :
    IsWord (toString value).toList (.number (toString value).toList) := by
  rw [Int.toString_eq_repr]
  cases value with
  | ofNat number =>
      have written : (Int.repr (.ofNat number)).toList = Nat.toDigits 10 number := by
        simp [Int.repr, Nat.repr_eq_ofList_toDigits]
      rw [written]
      exact isWord_digits (Text.allDigits_toDigits number) Nat.toDigits_ne_nil
  | negSucc number =>
      have written : (Int.repr (.negSucc number)).toList = '-' :: Nat.toDigits 10 (number + 1) := by
        simp [Int.repr, Nat.repr_eq_ofList_toDigits]
      rw [written]
      refine isWord_number (.inr rfl) ?_
      intro character member
      rcases List.mem_cons.1 member with rfl | inDigits
      · exact .inr (by decide)
      · exact .inl (Text.allDigits_toDigits _ character inDigits)

theorem isWord_amount
    (value : Amount) :
    IsWord (Json.number value).toList (.number (Json.number value).toList) := by
  cases value with
  | infinite => exact ⟨List.all_eq_true.1 (by decide), rfl⟩
  | finite steps isDouble =>
      cases steps with
      | zero =>
          have written : (Json.number (.finite 0 isDouble)).toList = ['0', '.', '0'] := by
            simp [Json.number, Amount.text, Amount.numeral]
          rw [written]
          exact isWord_number (.inl rfl) (by simp [Layout.signs])
      | succ others =>
          have written : (Json.number (.finite (others + 1) isDouble)).toList =
              Layout.full.write (Amount.shortest (others + 1) isDouble) := by
            simp [Json.number, Amount.text, Amount.numeral]
          obtain ⟨first, rest, shape, digit⟩ :=
            Layout.head?_write (Amount.shortest_digits_pos isDouble (Nat.succ_pos others))
          rw [written, shape]
          refine isWord_number (.inl digit) fun character member => ?_
          exact Layout.isDigit_or_mem_signs_of_mem_write (shape ▸ member)

/-! ## Values -/

theorem toList_breakLine
    (margin : Nat) :
    (Json.breakLine margin).toList = '\n' :: List.replicate margin ' ' := by
  rw [Json.breakLine, String.toList_ofList]

theorem behindBlanks_breakLine
    (margin : Nat)
    (text : List Char) :
    behindBlanks ((Json.breakLine margin).toList ++ text) = behindBlanks text := by
  have blanks : behindBlanks (List.replicate margin ' ' ++ text) = behindBlanks text := by
    induction margin with
    | zero => rfl
    | succ fewer inductionHypothesis => exact inductionHypothesis
  rw [toList_breakLine]
  exact blanks

theorem value?_breakLine
    (fuel margin : Nat)
    (text : List Char) :
    value? fuel ((Json.breakLine margin).toList ++ text) = value? fuel text := by
  cases fuel with
  | zero => rfl
  | succ fewer => rw [value?, value?, behindBlanks_breakLine]

theorem items?_breakLine
    (fuel margin : Nat)
    (text : List Char) :
    items? fuel ((Json.breakLine margin).toList ++ text) = items? fuel text := by
  cases fuel with
  | zero => rfl
  | succ fewer => rw [items?, items?, value?_breakLine]

theorem fields?_breakLine
    (fuel margin : Nat)
    (text : List Char) :
    fields? fuel ((Json.breakLine margin).toList ++ text) = fields? fuel text := by
  cases fuel with
  | zero => rfl
  | succ fewer => rw [fields?, fields?, behindBlanks_breakLine]

theorem endsWord_breakLine
    (margin : Nat)
    (rest : List Char) :
    EndsWord ((Json.breakLine margin).toList ++ rest) := by
  rw [toList_breakLine]
  exact endsWord_cons (by decide) _

/-- No value begins with a closing bracket. -/
theorem behindBlanks_ne_of_value?
    {fuel : Nat}
    {text : List Char}
    {found : Decoded × List Char}
    (isRead : value? fuel text = some found)
    (rest : List Char) :
    behindBlanks text ≠ ']' :: rest := by
  intro closes
  cases fuel with
  | zero => cases isRead
  | succ fewer => simp [value?, closes, isWordChar, ofWord?] at isRead

theorem behindBlanks_ne_of_items?
    {fuel : Nat}
    {text : List Char}
    {found : List Decoded × List Char}
    (areRead : items? fuel text = some found)
    (rest : List Char) :
    behindBlanks text ≠ ']' :: rest := by
  cases fuel with
  | zero => cases areRead
  | succ fewer =>
      rw [items?] at areRead
      split at areRead
      · cases areRead
      · rename_i isRead
        exact behindBlanks_ne_of_value? isRead rest

/-- A list is read as its items are. -/
theorem value?_list
    {fuel : Nat}
    {text rest : List Char}
    {items : List Decoded}
    (areRead : items? fuel text = some (items, rest)) :
    value? (fuel + 1) ('[' :: text) = some (.list items, rest) := by
  have opening : behindBlanks ('[' :: text) = '[' :: text := rfl
  simp only [value?, opening, Char.reduceEq, ↓reduceIte]
  split
  · rename_i closes
    exact absurd closes (behindBlanks_ne_of_items? areRead _)
  · rw [areRead, Option.map_some]

/-- A record is read as its fields are. -/
theorem value?_record
    {fuel : Nat}
    {text rest : List Char}
    {fields : List (String × Decoded)}
    (areRead : fields? fuel text = some (fields, rest)) :
    value? (fuel + 1) ('{' :: text) = some (.record fields, rest) := by
  have opening : behindBlanks ('{' :: text) = '{' :: text := rfl
  simp only [value?, opening, Char.reduceEq, ↓reduceIte]
  split
  · rename_i closes
    cases fuel with
    | zero => cases areRead
    | succ fewer => simp [fields?, closes] at areRead
  · rw [areRead, Option.map_some]

/-- Whatever follows a text, its value is read from it; its length is fuel enough. -/
def Reads
    (text : List Char)
    (value : Decoded) :
    Prop :=
  ∀ fuel rest, text.length ≤ fuel → EndsWord rest → value? fuel (text ++ rest) = some (value, rest)

theorem IsWord.reads
    {word : List Char}
    {value : Decoded}
    (isWord : IsWord word value) :
    Reads word value := by
  intro fuel rest enough ends
  have positive : 0 < fuel := (List.length_pos_iff.2 isWord.ne_nil).trans_le enough
  obtain ⟨fewer, rfl⟩ := Nat.exists_eq_add_of_lt positive
  rw [Nat.zero_add]
  exact value?_word isWord ends fewer

theorem isWord_null :
    IsWord "null".toList .null :=
  ⟨List.all_eq_true.1 (by decide), rfl⟩

theorem isWord_bool
    (value : Bool) :
    IsWord (if value then "true" else "false").toList (.bool value) := by
  cases value <;> exact ⟨List.all_eq_true.1 (by decide), rfl⟩

theorem toList_quotedText
    (text : String) :
    (Json.quotedText text).toList = '"' :: (text.toList.flatMap Json.escapedChar ++ ['"']) := by
  simp [Json.quotedText]

theorem reads_quotedText
    (text : String) :
    Reads (Json.quotedText text).toList (.text text) := by
  intro fuel rest enough _
  rw [toList_quotedText] at enough ⊢
  rw [List.length_cons] at enough
  obtain ⟨fewer, rfl⟩ := Nat.exists_eq_add_of_lt enough
  have opening (behind : List Char) : behindBlanks ('"' :: behind) = '"' :: behind := rfl
  rw [List.cons_append, List.append_assoc]
  simp [value?, opening, quoted?_escaped]

/-! ## Lists and records -/

/-- Items between brackets, as a list of characters. -/
theorem toList_enclose
    (opening closing : String)
    (indent level : Nat)
    (first : String)
    (others : List String) :
    (Json.enclose opening closing indent level (first :: others)).toList =
      opening.toList ++ ((Json.breakLine (indent * (level + 1))).toList ++
        (("," ++ Json.breakLine (indent * (level + 1))).intercalate (first :: others)).toList ++
          ((Json.breakLine (indent * level)).toList ++ closing.toList)) := by
  simp [Json.enclose]

/-- The first of several texts, a comma, and the other texts on the next line. -/
theorem toList_intercalate_cons
    (margin : Nat)
    (first second : String)
    (others : List String) :
    (("," ++ Json.breakLine margin).intercalate (first :: second :: others)).toList =
      first.toList ++ (',' :: ((Json.breakLine margin).toList ++
        (("," ++ Json.breakLine margin).intercalate (second :: others)).toList)) := by
  simp [String.intercalate_cons_cons]

/-- Items are read one by one, up to the bracket that closes them. -/
theorem items?_of_reads
    (margin behind : Nat)
    {first : String}
    {texts : List String}
    {item : Decoded}
    {items : List Decoded}
    (isRead : Reads first.toList item)
    (areRead : List.Forall₂ (fun text => Reads text.toList) texts items)
    (fuel : Nat)
    (rest : List Char)
    (enough : (("," ++ Json.breakLine margin).intercalate (first :: texts)).toList.length < fuel) :
    items? fuel ((("," ++ Json.breakLine margin).intercalate (first :: texts)).toList ++
        ((Json.breakLine behind).toList ++ ']' :: rest)) =
      some (item :: items, rest) := by
  induction areRead generalizing first item fuel with
  | nil =>
      rw [String.intercalate_singleton] at enough ⊢
      obtain ⟨fewer, rfl⟩ : ∃ fewer, fuel = fewer + 1 := ⟨fuel - 1, by omega⟩
      have closing : behindBlanks ((Json.breakLine behind).toList ++ ']' :: rest) = ']' :: rest :=
        behindBlanks_breakLine behind _
      rw [items?, isRead fewer _ (Nat.le_of_lt_succ enough) (endsWord_breakLine _ _)]
      simp only [closing]
  | cons isSecond areOthers inductionHypothesis =>
      rw [toList_intercalate_cons] at enough ⊢
      simp only [List.length_append, List.length_cons] at enough
      obtain ⟨fewer, rfl⟩ : ∃ fewer, fuel = fewer + 1 := ⟨fuel - 1, by omega⟩
      have others := inductionHypothesis isSecond fewer (by omega)
      have comma (text : List Char) : behindBlanks (',' :: text) = ',' :: text := rfl
      rw [List.append_assoc, List.cons_append, items?,
        isRead _ _ (by omega) (endsWord_cons (by decide) _)]
      simp only [comma, List.append_assoc, items?_breakLine, others, Option.map_some]

/-- Lists without items and lists with items are read when their items are. -/
theorem reads_list
    (indent level : Nat)
    {texts : List String}
    {items : List Decoded}
    (areRead : List.Forall₂ (fun text => Reads text.toList) texts items) :
    Reads (Json.enclose "[" "]" indent level texts).toList (.list items) := by
  intro fuel rest enough _
  cases areRead with
  | nil =>
      have empty : (Json.enclose "[" "]" indent level []).toList = ['[', ']'] := by
        simp [Json.enclose]
      rw [empty] at enough ⊢
      obtain ⟨fewer, rfl⟩ := Nat.exists_eq_add_of_lt enough
      rfl
  | cons isFirst areOthers =>
      rw [toList_enclose] at enough ⊢
      simp only [List.length_append, String.reduceToList, List.length_cons, List.length_nil]
        at enough
      obtain ⟨fewer, rfl⟩ : ∃ fewer, fuel = fewer + 1 := ⟨fuel - 1, by omega⟩
      have areRead := items?_of_reads (indent * (level + 1)) (indent * level) isFirst areOthers
        fewer rest (by omega)
      simp only [String.reduceToList, List.cons_append, List.nil_append, List.append_assoc]
      exact value?_list ((items?_breakLine _ _ _).trans areRead)

/-- A text is read as a field: the name between quotes, a colon, and the text of the value. -/
def ReadsField
    (text : String)
    (field : String × Decoded) :
    Prop :=
  ∃ written : String,
    text = Json.quotedText field.1 ++ ": " ++ written ∧ Reads written.toList field.2

/-- A field is read up to the comma or the brace behind its value. -/
theorem ReadsField.fields?_eq
    {text : String}
    {field : String × Decoded}
    (isRead : ReadsField text field)
    {fuel : Nat}
    (enough : text.toList.length ≤ fuel)
    {rest behind : List Char}
    (ends : EndsWord rest) :
    (behindBlanks rest = ',' :: behind →
        fields? (fuel + 1) (text.toList ++ rest) =
          (fields? fuel behind).map fun found => (field :: found.1, found.2)) ∧
      (behindBlanks rest = '}' :: behind →
        fields? (fuel + 1) (text.toList ++ rest) = some ([field], behind)) := by
  obtain ⟨written, rfl, isValue⟩ := isRead
  have opening (text : List Char) : behindBlanks ('"' :: text) = '"' :: text := rfl
  have colon (text : List Char) : behindBlanks (':' :: ' ' :: text) = ':' :: ' ' :: text := rfl
  have blank (fuel : Nat) (text : List Char) : value? fuel (' ' :: text) = value? fuel text := by
    cases fuel <;> rfl
  simp only [String.toList_append, toList_quotedText, List.length_append] at enough
  have value := isValue fuel rest (by omega) ends
  constructor
  · intro comma
    simp [fields?, toList_quotedText, opening, quoted?_escaped, colon, blank, value, comma]
  · intro brace
    simp [fields?, toList_quotedText, opening, quoted?_escaped, colon, blank, value, brace]

/-- Fields are read one by one, up to the brace that closes them. -/
theorem fields?_of_reads
    (margin behind : Nat)
    {first : String}
    {texts : List String}
    {field : String × Decoded}
    {fields : List (String × Decoded)}
    (isRead : ReadsField first field)
    (areRead : List.Forall₂ ReadsField texts fields)
    (fuel : Nat)
    (rest : List Char)
    (enough : (("," ++ Json.breakLine margin).intercalate (first :: texts)).toList.length < fuel) :
    fields? fuel ((("," ++ Json.breakLine margin).intercalate (first :: texts)).toList ++
        ((Json.breakLine behind).toList ++ '}' :: rest)) =
      some (field :: fields, rest) := by
  induction areRead generalizing first field fuel with
  | nil =>
      rw [String.intercalate_singleton] at enough ⊢
      obtain ⟨fewer, rfl⟩ : ∃ fewer, fuel = fewer + 1 := ⟨fuel - 1, by omega⟩
      exact (isRead.fields?_eq (Nat.le_of_lt_succ enough) (endsWord_breakLine _ _)).2
        (behindBlanks_breakLine behind _)
  | cons isSecond areOthers inductionHypothesis =>
      rw [toList_intercalate_cons] at enough ⊢
      simp only [List.length_append, List.length_cons] at enough
      obtain ⟨fewer, rfl⟩ : ∃ fewer, fuel = fewer + 1 := ⟨fuel - 1, by omega⟩
      have others := inductionHypothesis isSecond fewer (by omega)
      rw [List.append_assoc, List.cons_append,
        (isRead.fields?_eq (by omega) (endsWord_cons (by decide) _)).1 rfl]
      simp only [List.append_assoc, fields?_breakLine, others, Option.map_some]

/-- Records without fields and records with fields are read when their fields are. -/
theorem reads_record
    (indent level : Nat)
    {texts : List String}
    {fields : List (String × Decoded)}
    (areRead : List.Forall₂ ReadsField texts fields) :
    Reads (Json.enclose "\x7b" "\x7d" indent level texts).toList (.record fields) := by
  intro fuel rest enough _
  cases areRead with
  | nil =>
      have empty : (Json.enclose "\x7b" "\x7d" indent level []).toList = ['{', '}'] := by
        simp [Json.enclose]
      rw [empty] at enough ⊢
      obtain ⟨fewer, rfl⟩ := Nat.exists_eq_add_of_lt enough
      rfl
  | cons isFirst areOthers =>
      rw [toList_enclose] at enough ⊢
      simp only [List.length_append, String.reduceToList, List.length_cons, List.length_nil]
        at enough
      obtain ⟨fewer, rfl⟩ : ∃ fewer, fuel = fewer + 1 := ⟨fuel - 1, by omega⟩
      have areRead := fields?_of_reads (indent * (level + 1)) (indent * level) isFirst areOthers
        fewer rest (by omega)
      simp only [String.reduceToList, List.cons_append, List.nil_append, List.append_assoc]
      exact value?_record ((fields?_breakLine _ _ _).trans areRead)

mutual

/-- A report is read from its text, at any level of nesting. -/
theorem reads_writeAt
    (indent level : Nat) :
    (report : Json) → Reads (Json.writeAt indent level report).toList report.decoded
  | .null => isWord_null.reads
  | .bool value => (isWord_bool value).reads
  | .integer value => (isWord_integer value).reads
  | .amount value => (isWord_amount value).reads
  | .text value => reads_quotedText value
  | .list items => reads_list indent level (forall₂_writeItems indent (level + 1) items)
  | .record fields => reads_record indent level (forall₂_writeFields indent (level + 1) fields)

/-- The items of a list are read from their texts. -/
theorem forall₂_writeItems
    (indent level : Nat) :
    (items : List Json) →
      List.Forall₂ (fun text => Reads text.toList) (Json.writeItems indent level items)
        (Json.decodedItems items)
  | [] => .nil
  | item :: rest => .cons (reads_writeAt indent level item) (forall₂_writeItems indent level rest)

/-- The fields of a record are read from their texts. -/
theorem forall₂_writeFields
    (indent level : Nat) :
    (fields : List (String × Json)) →
      List.Forall₂ ReadsField (Json.writeFields indent level fields) (Json.decodedFields fields)
  | [] => .nil
  | (_, value) :: rest =>
      .cons ⟨_, rfl, reads_writeAt indent level value⟩ (forall₂_writeFields indent level rest)

end

end Decoder

/-- A written report is decoded to what the report says, also with a line break behind it. -/
theorem decode?_write
    (indent : Nat)
    (report : Json) :
    decode? (report.write indent) = some report.decoded ∧
      decode? (report.write indent ++ "\n") = some report.decoded := by
  have isRead := Decoder.reads_writeAt indent 0 report
  constructor
  · have whole := isRead _ [] le_rfl (fun first none => by cases none)
    rw [List.append_nil] at whole
    rw [decode?, Json.write, whole]
    rfl
  · have text : (report.write indent ++ "\n").toList =
        (Json.writeAt indent 0 report).toList ++ ['\n'] := by
      simp [Json.write]
    have whole := isRead ((Json.writeAt indent 0 report).toList ++ ['\n']).length ['\n'] (by simp)
      (Decoder.endsWord_cons (by decide) [])
    rw [decode?, text, whole]
    rfl

end ManaCost.Report
