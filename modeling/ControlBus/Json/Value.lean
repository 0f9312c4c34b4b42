-- Values of the interchange format as their text gives them: members in order, repeated
-- ones included, and strings that hold half a surrogate pair told apart from texts. And how
-- strings are written: quotes, backslashes and control characters are escaped, every other
-- character stands as it is.
import ControlBus.Assoc

namespace ControlBus

/-- A value read from text. -/
inductive Json where
  | null
  | bool (b : Bool)
  /-- A number; its value if it is written as a whole number, without point or exponent. -/
  | number (whole : Option Int)
  /-- A string; `none` if an escape in it is half of a surrogate pair. -/
  | string (text : Option String)
  | array (items : List Json)
  | object (members : List (Option String × Json))

namespace Json

/-- The text of a string. -/
def text? : Json → Option String
  | string (some s) => some s
  | _ => none

/-- The value of a whole number. -/
def whole? : Json → Option Int
  | number n => n
  | _ => none

def bool? : Json → Option Bool
  | bool b => some b
  | _ => none

def array? : Json → Option (List Json)
  | array items => some items
  | _ => none

/-- Either half of a pair of texts. -/
def textPair? : Json → Option (String × String)
  | array [a, b] => return (← text? a, ← text? b)
  | _ => none

/-- The members of an object by name; every name has to be a text. -/
def members? : Json → Option (List (String × Json))
  | object members => members.mapM fun m => return (← m.1, m.2)
  | _ => none

/-- The parts of a structure: an object, in which unknown members are passed over and known
ones may not repeat, or an array that lists the parts in order. -/
def parts? (names : List String) : Json → Option (Assoc String Json)
  | object members => do
    let known := (← members? (object members)).filter fun m => names.contains m.1
    if (known.map (·.1)).Nodup then some known else none
  | array items => if items.length ≤ names.length then some (names.zip items) else none
  | _ => none

/-- A part that has to be there. -/
def part (parts : Assoc String Json) (name : String) (read : Json → Option α) : Option α :=
  Assoc.get? parts name >>= read

/-- A part that has a value of its own when it is absent. -/
def partOr (parts : Assoc String Json) (name : String) (absent : α) (read : Json → Option α) :
    Option α :=
  match Assoc.get? parts name with
  | some v => read v
  | none => some absent

/-- One of some named choices: a string that names it, or an object whose one member names it
and holds nothing. -/
def choice? (choose : String → Option α) : Json → Option α
  | string (some name) => choose name
  | object [(some name, null)] => choose name
  | _ => none

/-! ## Writing -/

/-- A character inside a string. -/
def writtenChar (c : Char) : List Char :=
  if c = '"' then ['\\', '"']
  else if c = '\\' then ['\\', '\\']
  else if c = '\x08' then ['\\', 'b']
  else if c = '\x0c' then ['\\', 'f']
  else if c = '\n' then ['\\', 'n']
  else if c = '\r' then ['\\', 'r']
  else if c = '\t' then ['\\', 't']
  else if c.toNat < 32 then
    ['\\', 'u', '0', '0', Nat.digitChar (c.toNat / 16), Nat.digitChar (c.toNat % 16)]
  else [c]

/-- A string with its quotes. -/
def written (s : String) : List Char := '"' :: s.toList.flatMap writtenChar ++ ['"']

/-- Texts with commas between them. -/
def separated : List (List Char) → List Char
  | [] => []
  | [x] => x
  | x :: rest => x ++ ',' :: separated rest

end Json

end ControlBus
