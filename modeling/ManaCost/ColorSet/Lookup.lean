import ManaCost.ColorSet.Operand
import ManaCost.Text.Caseless
import ManaCost.Text.Uppercase

namespace ManaCost.ColorSet

/-!
# Looking up color sets

A color set is found by a name, without regard to case, or by the letters of its colors in any
order and number.
-/

/-- The set of which a text is a name, without regard to case. -/
def ofAlias?
    (text : String) :
    Option ColorSet :=
  let folded := Text.caseless text.toList
  all.find? fun set => set.aliases.any fun name => Text.caseless name.toList == folded

/-- The set of which a text is a name. -/
def ofAlias
    (text : String) :
    Except Fault ColorSet :=
  match ofAlias? text with
  | some set => .ok set
  | none => .error (.unknownColorSet text)

/-- The set of the colors that letters of either case stand for; the first letter of no color is
reported. -/
def ofLetters
    (text : String) :
    Except Fault ColorSet := do
  let colors ← (Text.upper text.toList).mapM fun letter => Color.ofText (String.singleton letter)
  ofOperands [.several colors]

/-- The set that a text names or spells, a name before letters. -/
def ofText
    (text : String) :
    Except Fault ColorSet :=
  match ofAlias? text with
  | some set => .ok set
  | none =>
      match ofLetters text with
      | .ok set => .ok set
      | .error _ => .error (.unknownColorSet text)

end ManaCost.ColorSet
