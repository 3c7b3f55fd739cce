import ManaCost.Fault

namespace ManaCost

/-!
# Colors

The six colors.  Colorless is a color of its own here: what a colorless pip asks for, never what a
generic amount asks for.
-/

/-- One of the six colors. -/
inductive Color where
  | white
  | blue
  | black
  | red
  | green
  | colorless
  deriving DecidableEq, Repr

namespace Color

/-- The colors in the order of their masks. -/
def all : List Color :=
  [.white, .blue, .black, .red, .green, .colorless]

/-- The five pigments in the order of the color wheel. -/
def wheel : List Color :=
  [.white, .blue, .black, .red, .green]

/-- The position of a color, which is also the position of its bit in a mask. -/
def index : Color → Nat
  | .white => 0
  | .blue => 1
  | .black => 2
  | .red => 3
  | .green => 4
  | .colorless => 5

/-- The bit of a color in a mask. -/
def bit
    (color : Color) :
    Nat :=
  1 <<< color.index

/-- The letter that stands for a color in a symbol. -/
def letter : Color → Char
  | .white => 'W'
  | .blue => 'U'
  | .black => 'B'
  | .red => 'R'
  | .green => 'G'
  | .colorless => 'C'

/-- The name of a color. -/
def name : Color → String
  | .white => "White"
  | .blue => "Blue"
  | .black => "Black"
  | .red => "Red"
  | .green => "Green"
  | .colorless => "Colorless"

instance : ToString Color :=
  ⟨name⟩

/-- The color that a letter or a name stands for. -/
def ofText
    (text : String) :
    Except Fault Color :=
  let names (color : Color) : Bool := text == String.singleton color.letter || text == color.name
  match all.find? names with
  | some color => .ok color
  | none => .error (.unknownColor text)

/-- Every color is listed. -/
theorem mem_all
    (color : Color) :
    color ∈ all := by
  cases color <;> decide

/-- Every index is below six. -/
theorem index_lt
    (color : Color) :
    color.index < 6 := by
  cases color <;> decide

end Color

end ManaCost
