-- The tables of a configuration file as its lines build them. A table may be named by its own
-- header, be implied by the header of a table inside it, or be made by dotted keys; each way
-- leaves different ways to add to it later.
import ControlBus.Config.Setting

namespace ControlBus.Toml

/-- How a table came to be. -/
inductive Origin where
  /-- By a header of its own, or as a table in braces. It takes no dotted keys from outside. -/
  | header
  /-- By the header of a table inside it. A header of its own may still follow. -/
  | implied
  /-- By dotted keys. -/
  | dotted
deriving Repr, DecidableEq

/-- What stands under a key. -/
inductive Node where
  | value (v : Setting)
  | table (origin : Origin) (entries : List (String × Node))
  /-- Tables of one header that may come again; later lines belong to the last of them. -/
  | tables (items : List (List (String × Node)))

/-- The entries of a table. -/
abbrev Entries := List (String × Node)

/-- A place in a table: the keys on the way and the last key. -/
structure KeyPath where
  parents : List String
  key : String
deriving Repr, DecidableEq

namespace Entries

/-- Change the table at the end of a way down from here. Tables missing on the way come to be as
`made` tells; a way by dotted keys does not lead into a table with a header of its own. -/
def within (made : Origin) (change : Origin → Entries → Option Entries) :
    List String → Origin → Entries → Option Entries
  | [], origin, es => change origin es
  | key :: path, _, es =>
    match Assoc.get? es key with
    | none => do return Assoc.put es key (.table made (← within made change path made []))
    | some (.value _) => none
    | some (.table origin inner) =>
      if made = .dotted && origin = .header then none
      else do return Assoc.put es key (.table origin (← within made change path origin inner))
    | some (.tables items) => do
      let last ← within made change path .header (← items.getLast?)
      return Assoc.put es key (.tables (items.dropLast ++ [last]))

/-- Add a value under a key that is still free. Dotted keys end in a table made by dotted keys. -/
def addValue (path : KeyPath) (v : Setting) (es : Entries) : Option Entries :=
  within .dotted (fun origin es =>
    if decide (origin = .dotted) = path.parents.isEmpty || Assoc.has es path.key then none
    else some (Assoc.put es path.key (.value v))) path.parents .header es

/-- Open a table by its header. One that was implied before moves behind the other entries. -/
def openTable (path : KeyPath) (es : Entries) : Option Entries :=
  within .implied (fun _ es =>
    match Assoc.get? es path.key with
    | none => some (Assoc.put es path.key (.table .header []))
    | some (.table .implied inner) =>
      some (Assoc.put (Assoc.erase es path.key) path.key (.table .header inner))
    | some _ => none) path.parents .header es

/-- Open one more table of a header that may come again. -/
def openNext (path : KeyPath) (es : Entries) : Option Entries :=
  within .implied (fun _ es =>
    match Assoc.get? es path.key with
    | none => some (Assoc.put es path.key (.tables [[]]))
    | some (.tables items) => some (Assoc.put es path.key (.tables (items ++ [[]])))
    | some _ => none) path.parents .header es

/-- The table that a list of keys and values makes. -/
def ofPairs (pairs : List (KeyPath × Setting)) : Option Entries :=
  pairs.foldlM (fun es p => addValue p.1 p.2 es) []

end Entries

mutual

/-- The settings under a key. -/
def Node.toSetting : Node → Setting
  | .value v => v
  | .table _ es => .table (settingsOf es)
  | .tables items => .list (tableSettings items)

/-- The settings of a table. -/
def settingsOf : List (String × Node) → List (String × Setting)
  | [] => []
  | (key, node) :: rest => (key, node.toSetting) :: settingsOf rest

/-- The settings of several tables. -/
def tableSettings : List (List (String × Node)) → List Setting
  | [] => []
  | es :: rest => .table (settingsOf es) :: tableSettings rest

end

end ControlBus.Toml
