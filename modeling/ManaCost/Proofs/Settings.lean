import Mathlib
import ManaCost.Settings

namespace ManaCost.Settings

/-!
# Settings that are found

Settings are those of a source when each of them has the value that is found under its name, or its
default when nothing is found.  The main statement is `ofSource_eq_ok_iff`.
-/

/-- A value is what is found under a name, or the default. -/
def IsFound
    (source : Source)
    (name : String)
    (value? : String → Option α)
    (default value : α) :
    Prop :=
  (source.find? name = none ∧ value = default) ∨
    ∃ text, source.find? name = some text ∧ value? text = some value

/-- Every setting is found in a source, under its name. -/
structure AreFound
    (source : Source)
    (settings : Settings) :
    Prop where
  logLevel : IsFound source "log_level" some "INFO" settings.logLevel
  colorPaysGeneric :
    IsFound source "color_pays_generic" source.truth? true settings.policy.colorPaysGeneric
  failOnExcess : IsFound source "fail_on_excess" source.truth? false settings.policy.failOnExcess
  jsonIndent : IsFound source "json_indent" source.whole? 2 settings.jsonIndent

theorem read_eq_ok_iff
    {source : Source}
    {setting : Setting}
    {value? : String → Option α}
    {default value : α} :
    read source setting value? default = .ok value ↔
      IsFound source setting.name value? default value := by
  cases found : source.find? setting.name with
  | none => simp [read, IsFound, found, eq_comm]
  | some text =>
      cases isRead : value? text with
      | none => simp [read, IsFound, found, isRead]
      | some other => simp [read, IsFound, found, isRead]

theorem isFound_text_iff
    {source : Source}
    {name default value : String} :
    IsFound source name some default value ↔ (source.find? name).getD default = value := by
  cases found : source.find? name with
  | none => simp [IsFound, found, eq_comm]
  | some text => simp [IsFound, found]

/-- The settings that are read from a source are those that are found in it. -/
theorem ofSource_eq_ok_iff
    {source : Source}
    {settings : Settings} :
    ofSource source = .ok settings ↔ settings.AreFound source := by
  constructor
  · intro isRead
    simp only [ofSource] at isRead
    split at isRead
    · rename_i generic excess indent
      obtain rfl := Except.ok.inj isRead
      exact ⟨isFound_text_iff.2 rfl, read_eq_ok_iff.1 generic, read_eq_ok_iff.1 excess,
        read_eq_ok_iff.1 indent⟩
    · cases isRead
  · intro found
    have generic : read source .colorPaysGeneric source.truth? true =
        .ok settings.policy.colorPaysGeneric := read_eq_ok_iff.2 found.colorPaysGeneric
    have excess : read source .failOnExcess source.truth? false =
        .ok settings.policy.failOnExcess := read_eq_ok_iff.2 found.failOnExcess
    have indent : read source .jsonIndent source.whole? 2 = .ok settings.jsonIndent :=
      read_eq_ok_iff.2 found.jsonIndent
    simp only [ofSource, generic, excess, indent, isFound_text_iff.1 found.logLevel]

end ManaCost.Settings
