import ManaCost.Symbol.Hybrid

namespace ManaCost

/-!
# Symbols

A symbol is pure or a hybrid of pure options.  It is written as its token between braces.
-/

/-- A mana symbol. -/
inductive Symbol where
  | single (symbol : PureSymbol)
  | hybrid (hybrid : Hybrid)
  deriving DecidableEq

/-- A token between braces. -/
def braced
    (token : List Char) :
    List Char :=
  '{' :: token ++ ['}']

namespace PureSymbol

/-- A pure symbol with its braces. -/
def text
    (symbol : PureSymbol) :
    String :=
  String.ofList (braced symbol.token)

end PureSymbol

namespace Symbol

/-- A symbol of generic mana. -/
abbrev generic
    (amount : Amount) :
    Symbol :=
  .single (.generic amount)

/-- A whole pip of a color. -/
abbrev pip
    (color : Color) :
    Symbol :=
  .single (.pip color)

/-- Half a pip of a color. -/
abbrev half
    (color : Color) :
    Symbol :=
  .single (.half color)

/-- A variable. -/
abbrev var
    (name : Variable) :
    Symbol :=
  .single (.var name)

/-- The kind of a symbol. -/
def kind : Symbol → Kind
  | .single symbol => symbol.kind
  | .hybrid _ => .hybrid

/-- The value of a symbol. -/
def manaValue : Symbol → Amount
  | .single symbol => symbol.manaValue
  | .hybrid options => options.manaValue

/-- The colors of a symbol. -/
def color : Symbol → ColorSet
  | .single symbol => symbol.color
  | .hybrid options => options.color

/-- The colors that paying a symbol requires: a hybrid is taken at its first color. -/
def requiredColor : Symbol → ColorSet
  | .single symbol => symbol.color
  | .hybrid options => options.firstColor

/-- What stands between the braces of a symbol. -/
def token : Symbol → List Char
  | .single symbol => symbol.token
  | .hybrid options => options.token

/-- A symbol with its braces. -/
def text
    (symbol : Symbol) :
    String :=
  String.ofList (braced symbol.token)

instance : ToString Symbol :=
  ⟨text⟩

/-- The symbol is paid in one way only. -/
def isPure : Symbol → Bool
  | .single _ => true
  | .hybrid _ => false

/-- The amount of a generic symbol. -/
def genericAmount? : Symbol → Option Amount
  | .single (.generic amount) => some amount
  | _ => none

/-- The symbol is generic mana. -/
def isGeneric
    (symbol : Symbol) :
    Bool :=
  symbol.genericAmount?.isSome

/-- The symbol is a variable. -/
def isVariable : Symbol → Bool
  | .single (.var _) => true
  | _ => false

/-- The options of a hybrid symbol; a pure symbol has none. -/
def options : Symbol → List PureSymbol
  | .single _ => []
  | .hybrid options => options.options

/-- A symbol as diagnostics show it. -/
def inspect : Symbol → String
  | .single symbol => symbol.inspect
  | .hybrid options => options.inspect

/-- The hybrid symbol of a list of symbols, which must be pure and name two distinct ones. -/
def hybridOf
    (symbols : List Symbol) :
    Except Fault Symbol := do
  let options ← symbols.mapM fun symbol =>
    match symbol with
    | .single option => .ok option
    | .hybrid _ => .error (Fault.hybridOption symbol.text)
  match Hybrid.ofOptions? options with
  | some options => return .hybrid options
  | none => throw (.malformedSymbol (String.ofList (joinTokens options.eraseDups)))

end Symbol

end ManaCost
