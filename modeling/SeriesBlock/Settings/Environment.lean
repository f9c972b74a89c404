import SeriesBlock.Settings.Value

/-!
# Settings in the environment

Variables whose names start with a common word hold settings. What follows that word is the name of a setting,
two underscores between the names on its path. A variable that is empty counts as absent. Values that look like
flags or numbers are taken as such.
-/

set_option autoImplicit false

namespace SeriesBlock.Environment

/-- The variables of an environment and their values. -/
abbrev Variables := List (String × String)

/-- What the names of all variables with settings start with. -/
def marker : String := "tsblock_"

/-- A path of names with points in place of pairs of underscores. -/
def pointed : List Char → List Char
  | '_' :: '_' :: rest => '.' :: pointed rest
  | c :: rest => c :: pointed rest
  | [] => []

/-- The path that a variable's name stands for, if it holds a setting. -/
def path? (name : String) : Option (List SettingStep) :=
  let cs := (Setting.fold name).toList
  if marker.toList.isPrefixOf cs then
    some (SettingPath.ofKey (String.ofList (pointed (cs.drop marker.length))))
  else none

/-- The value of a variable: a flag, an integer, another number, or else text. -/
def setting (value : String) : Setting :=
  if value.toLower = "true" then .boolean true
  else if value.toLower = "false" then .boolean false
  else
    match Text.signed64? value with
    | some n => .integer n.toInt
    | none =>
      match Text.decimal? value with
      | some d => .decimal d
      | none => .text value

/-- Lays the settings of an environment over those of a table. -/
def layer (env : Variables) (fields : List (String × Setting)) : List (String × Setting) :=
  env.foldl (fun fs (name, value) =>
    if value.isEmpty then fs
    else
      match path? name with
      | some path => (setting value).putAt path fs
      | none => fs) fields

end SeriesBlock.Environment
