-- Settings from the environment, and the name of the environment itself.
import ControlBus.Config.Setting

namespace ControlBus.Environment

/-- What a variable for the bus starts with. -/
def stem : String := "orchbus__"

/-- The settings key of a variable; every double underscore after the stem separates names. -/
def key? (varName : String) : Option String :=
  let name := (Text.lowercase varName).toList
  if stem.toList.isPrefixOf name then
    some (String.ofList (dots (name.drop stem.toList.length)))
  else none
where
  dots : List Char → List Char
    | '_' :: '_' :: rest => '.' :: dots rest
    | c :: rest => c :: dots rest
    | [] => []

/-- The value of a variable: a truth value, a number, or else a text. -/
def value (s : String) : Setting :=
  let lower := Text.lowercase s
  if lower = "true" then .flag true
  else if lower = "false" then .flag false
  else
    match Text.integer? s.toList >>= Text.signed64? with
    | some n => .whole n
    | none =>
      match Text.Binary64.ofChars? s.toList with
      | some x => .decimal x
      | none => .text s

/-- The settings among some variables. -/
def settings (vars : List (String × String)) : List (String × Setting) :=
  vars.filterMap fun v => (key? v.1).map fun k => (k, value v.2)

/-- The name of the environment that a process runs in. -/
def name (vars : Assoc String String) : String :=
  ((Assoc.get? vars "ORCHBUS_ENV").or (Assoc.get? vars "APP_ENV")).getD "development"

end ControlBus.Environment
