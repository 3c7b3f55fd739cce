import ManaCost.Settings
import ManaCost.Text.WholeNumber

namespace ManaCost.Settings.Source

/-!
# Settings from the environment

A plain source of settings: variables of the environment, and behind them those of a file.  Names may
be in any case; of two names that differ in case only, the later one counts.  A truth value is one of
twelve words of ASCII letters, again in any case, with nothing around it; a whole number is read as
`Text.wholeNumber?` says.
-/

/-- A text in lower case, ASCII letters only. -/
def lowered
    (text : String) :
    String :=
  text.map Char.toLower

/-- The truth value of a word. -/
def readBool?
    (text : String) :
    Option Bool :=
  let word := lowered text
  if ["true", "1", "yes", "on", "t", "y"].contains word then
    some true
  else if ["false", "0", "no", "off", "f", "n"].contains word then
    some false
  else
    none

/-- The value of a variable, whatever the case of its name. -/
def lookUp?
    (entries : List (String × String))
    (name : String) :
    Option String :=
  (entries.reverse.find? fun entry => lowered entry.1 == name).map Prod.snd

/-- The settings of an environment, and of a file where the environment has none. -/
def ofVariables
    (environment file : List (String × String)) :
    Source where
  find? name := (lookUp? environment name).orElse fun _ => lookUp? file name
  truth? := readBool?
  whole? text := Text.wholeNumber? text.toList

end ManaCost.Settings.Source
