-- Loading a configuration: the file first, then the environment over it, then the check that
-- the result can work.
import ControlBus.Config.Environment
import ControlBus.Config.Merge
import ControlBus.Config.Toml.Document

namespace ControlBus

/-- A settings file by its path; it has a text if it is there. -/
structure SettingsFile where
  path : String
  text : Option String
deriving Repr, DecidableEq

namespace SettingsFile

/-- The settings in a file. -/
def settings? (f : SettingsFile) : Except String (List (String × Setting)) :=
  match f.text with
  | none => .error "configuration file not found"
  | some text =>
    match Toml.settings? text.toList with
    | none => .error "configuration file is malformed"
    | some settings => .ok settings

end SettingsFile

namespace BusConfig

/-- The tree of settings of a file and of some environment variables, which win. -/
def settingsTree (file : Option SettingsFile) (vars : List (String × String)) :
    Except String Setting := do
  let fromFile ← match file with
    | none => pure []
    | some f => f.settings?
  return ((Setting.table []).merge fromFile).merge (Environment.settings vars)

/-- The configuration before it is checked. -/
def assemble (file : Option SettingsFile) (vars : List (String × String)) :
    Except String BusConfig := do
  match ofSetting? (← settingsTree file vars) with
  | some config => pure config
  | none => throw "a setting has the wrong kind or does not fit"

/-- Load the configuration from a file and the environment. -/
def load (file : Option SettingsFile) (vars : List (String × String)) :
    Except ConfigError BusConfig :=
  match assemble file vars with
  | .error reason => .error (.unreadable ((file.map (·.path)).getD "defaults") reason)
  | .ok config => do
    config.validate
    return config

end BusConfig

end ControlBus
