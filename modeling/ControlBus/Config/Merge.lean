-- Merging settings into one tree. Keys lose their case, tables merge key by key, anything else
-- replaces what was there. A top-level key may be a path into the tree.
import ControlBus.Config.Setting

namespace ControlBus

namespace Setting

/-- The entries of a table; anything else has none. -/
def entries : Setting → Assoc String Setting
  | table es => es
  | _ => []

/-- The items of a list; anything else has none. -/
def items : Setting → List Setting
  | list vs => vs
  | _ => []

mutual

/-- Write a value under a key of a table, whatever was in the table's place. -/
def assign (key : String) (root : Setting) : Setting → Setting
  | table incoming =>
    let key := Text.lowercase key
    let target := (Assoc.get? root.entries key).getD (table [])
    table (Assoc.put root.entries key (assignAll incoming target))
  | value => table (Assoc.put root.entries (Text.lowercase key) value)

/-- Write values under their keys, one after the other. -/
def assignAll : List (String × Setting) → Setting → Setting
  | [], target => target
  | (key, value) :: rest, target => assignAll rest (assign key target value)

end

end Setting

/-- A place in a tree of settings. -/
inductive SettingPath where
  | key (name : String)
  | child (parent : SettingPath) (name : String)
  | item (parent : SettingPath) (index : Int)
deriving Repr, DecidableEq

namespace SettingPath

/-- The position that an index means in a list; a negative one counts from the end. -/
def position (index : Int) (size : Nat) : Nat :=
  if 0 ≤ index then index.toNat else size - (-index).toNat

/-- Change the item at a position, making the list long enough first. -/
def atPosition (place : Nat) (f : Setting → Setting) (items : List Setting) : List Setting :=
  let items := items ++ List.replicate (place + 1 - items.length) .nothing
  items.set place (f (items.getD place .nothing))

/-- Change what is at a place, making tables and lists on the way as needed. -/
def change : SettingPath → (Setting → Setting) → Setting → Setting
  | key name, f, root =>
    .table (Assoc.put root.entries name (f ((Assoc.get? root.entries name).getD .nothing)))
  | child parent name, f, root =>
    parent.change (fun v =>
      .table (Assoc.put v.entries name (f ((Assoc.get? v.entries name).getD .nothing)))) root
  | item parent index, f, root =>
    parent.change (fun v =>
      .list (atPosition (position index v.items.length) f v.items)) root

/-- Write a value at a place. -/
def assign : SettingPath → Setting → Setting → Setting
  | key name, value, root => Setting.assign name root value
  | child parent name, value, root => parent.change (Setting.assign name · value) root
  | item parent index, value, root =>
    parent.change (fun v =>
      .list (atPosition (position index v.items.length) (fun _ => value) v.items)) root

/-! ## Reading a path -/

/-- The characters of names in a path. -/
def isNameChar (c : Char) : Bool := c.isAlphanum || c = ' ' || c = '_' || c = '-'

/-- A name at the start of a text, and what follows it. -/
def name? (cs : List Char) : Option (String × List Char) :=
  match cs.span isNameChar with
  | ([], _) => none
  | (name, rest) => some (String.ofList name, rest)

def isBlank (c : Char) : Bool := c = ' ' || c = '\t'

/-- An index before a closing bracket, and what follows the bracket. -/
def index? (cs : List Char) : Option (Int × List Char) :=
  let cs := cs.dropWhile isBlank
  let (negative, cs) := match cs with
    | '-' :: rest => (true, rest)
    | _ => (false, cs)
  let (digits, rest) := Text.Binary64.spanDigits cs
  match Text.natural? 10 digits, rest.dropWhile isBlank with
  | some n, ']' :: rest =>
    (Text.signed64? (if negative then -(n : Int) else n)).map (·, rest)
  | _, _ => none

/-- The rest of a path after `parent`. Every step takes a character at least, so the length of
the text bounds the steps. -/
def extend : Nat → SettingPath → List Char → Option SettingPath
  | _, parent, [] => some parent
  | 0, _, _ => none
  | bound + 1, parent, '.' :: rest => do
    let (name, rest) ← name? rest
    extend bound (child parent name) rest
  | bound + 1, parent, '[' :: rest => do
    let (index, rest) ← index? rest
    extend bound (item parent index) rest
  | _, _, _ => none

/-- The path that a text writes once its letters have lost their case; a text that writes none
is one key. -/
def ofText (s : String) : SettingPath :=
  let s := Text.lowercase s
  let path := do
    let (name, rest) ← name? s.toList
    extend rest.length (key name) rest
  path.getD (key s)

end SettingPath

/-- Merge settings under top-level keys into a tree. -/
def Setting.merge (root : Setting) (source : List (String × Setting)) : Setting :=
  source.foldl (fun root e => (SettingPath.ofText e.1).assign e.2 root) root

end ControlBus
