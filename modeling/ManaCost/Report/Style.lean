import ManaCost.Cost.Basic

namespace ManaCost.Report

/-!
# Styles

In styled text a symbol stands between a tag with the style of its color and a closing tag, and is
escaped so that nothing of it is taken for a tag.
-/

/-- The style of a color. -/
def colorStyle : Color → String
  | .white => "bold bright_white"
  | .blue => "bold blue"
  | .black => "bold magenta"
  | .red => "bold red"
  | .green => "bold green"
  | .colorless => "bold cyan"

/-- The style of a color set: that of its color when it has one only. -/
def style
    (set : ColorSet) :
    String :=
  match set.printingOrder with
  | [] => "dim"
  | [color] => colorStyle color
  | _ => "bold yellow"

/-- A text between a tag with a style and a closing tag. -/
def tagged
    (style text : String) :
    String :=
  "[" ++ style ++ "]" ++ text ++ "[/]"

/-- A symbol in the style of its color. -/
def styledSymbol
    (escape : String → String)
    (symbol : Symbol) :
    String :=
  tagged (style symbol.color) (escape symbol.text)

/-- A cost, each symbol in the style of its color. -/
def styledCost
    (escape : String → String)
    (cost : Cost) :
    String :=
  if cost.isEmpty then
    tagged (style ∅) cost.text
  else
    String.join (cost.symbols.map (styledSymbol escape))

end ManaCost.Report
