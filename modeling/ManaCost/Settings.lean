import ManaCost.Cost.Payment

namespace ManaCost

/-!
# Settings

A setting has a name, a kind and a default.  What is found under a name, in the environment or in a
file, and what values the text that is found there stands for, is the business of a source of
settings.
-/

/-- The settings that can have a bad value, in the order of their names. -/
inductive Setting where
  | colorPaysGeneric
  | failOnExcess
  | jsonIndent
  deriving DecidableEq, Repr

/-- The settings of the program. -/
structure Settings where
  logLevel : String
  policy : Policy
  jsonIndent : Int
  deriving DecidableEq

namespace Setting

/-- The name of a setting. -/
def name : Setting → String
  | .colorPaysGeneric => "color_pays_generic"
  | .failOnExcess => "fail_on_excess"
  | .jsonIndent => "json_indent"

/-- What is wrong with a bad value of a setting. -/
def problem : Setting → String
  | .colorPaysGeneric => "bool_parsing"
  | .failOnExcess => "bool_parsing"
  | .jsonIndent => "int_parsing"

end Setting

namespace Settings

/-- Where settings come from. -/
structure Source where
  /-- The text that is found under a name. -/
  find? : String → Option String
  /-- The truth value that a text stands for. -/
  truth? : String → Option Bool
  /-- The whole number that a text stands for. -/
  whole? : String → Option Int

/-- The value of a setting, or its default when nothing is found under its name. -/
def read
    (source : Source)
    (setting : Setting)
    (value? : String → Option α)
    (default : α) :
    Except Setting α :=
  match source.find? setting.name with
  | none => .ok default
  | some text =>
      match value? text with
      | some value => .ok value
      | none => .error setting

/-- The settings of a source, or those that have a bad value. -/
def ofSource
    (source : Source) :
    Except (List Setting) Settings :=
  let colorPaysGeneric := read source .colorPaysGeneric source.truth? true
  let failOnExcess := read source .failOnExcess source.truth? false
  let jsonIndent := read source .jsonIndent source.whole? 2
  match colorPaysGeneric, failOnExcess, jsonIndent with
  | .ok colorPaysGeneric, .ok failOnExcess, .ok jsonIndent =>
      .ok {
        logLevel := (source.find? "log_level").getD "INFO"
        policy := ⟨colorPaysGeneric, failOnExcess⟩
        jsonIndent := jsonIndent }
  | _, _, _ =>
      let bad {α : Type} : Except Setting α → List Setting
        | .ok _ => []
        | .error setting => [setting]
      .error (bad colorPaysGeneric ++ bad failOnExcess ++ bad jsonIndent)

end Settings

end ManaCost
