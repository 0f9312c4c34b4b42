-- The configuration file format: lines of keys and values under table headers. A file is read
-- line by line, and the lines build the tree of settings.
import ControlBus.Config.Toml.Scalar
import ControlBus.Config.Toml.Tables

namespace ControlBus.Toml

/-- A line that says something. -/
inductive Line where
  | pair (path : KeyPath) (v : Setting)
  | header (path : KeyPath)
  /-- A header that opens one more table of the same name. -/
  | nextHeader (path : KeyPath)

/-! ## Blanks and comments -/

/-- A text without the comment at its start. -/
def afterComment : List Char → List Char
  | '#' :: rest => rest.dropWhile isTextChar
  | cs => cs

/-- A text without the blanks, comments and line ends at its start. Every round takes a line
end, so the length of the text bounds the rounds. -/
def skipTrivia : Nat → List Char → List Char
  | 0, cs => cs
  | bound + 1, cs =>
    let cs := afterComment (skipBlank cs)
    match newline? cs with
    | some rest => skipTrivia bound rest
    | none => cs

/-- What follows the end of a line, which blanks and a comment may precede. -/
def lineEnd? (cs : List Char) : Option (List Char) :=
  match afterComment (skipBlank cs) with
  | [] => some []
  | cs => newline? cs

/-! ## Keys -/

/-- How deep values and dotted keys may go. -/
def depthLimit : Nat := 79

def isBareChar (c : Char) : Bool := c.isAlphanum || c = '-' || c = '_'

/-- One part of a key: bare or in quotes. -/
def simpleKey? (cs : List Char) : Option (String × List Char) :=
  match cs with
  | [] => none
  | c :: _ =>
    if c = '"' || c = '\'' then (lineString? cs).map fun r => (String.ofList r.1, r.2)
    else
      match cs.span isBareChar with
      | ([], _) => none
      | (name, rest) => some (String.ofList name, rest)

/-- The parts of a dotted key, blanks between them passed over. -/
def keyParts : Nat → List Char → Option (List String × List Char)
  | 0, _ => none
  | bound + 1, cs => do
    let (part, rest) ← simpleKey? (skipBlank cs)
    match skipBlank rest with
    | '.' :: rest =>
      let (parts, rest) ← keyParts bound rest
      return (part :: parts, rest)
    | rest => return ([part], rest)

/-- A key of at most so many parts. -/
def key? (cs : List Char) : Option (KeyPath × List Char) := do
  let (parts, rest) ← keyParts depthLimit cs
  return ({ parents := parts.dropLast, key := ← parts.getLast? }, rest)

/-! ## Values -/

section
variable (read : List Char → Option (Setting × List Char))

/-- The items of a list after its opening bracket. -/
def listItems : Nat → List Char → Option (List Setting × List Char)
  | 0, _ => none
  | bound + 1, cs =>
    match skipTrivia (cs.length + 1) cs with
    | ']' :: rest => some ([], rest)
    | cs => do
      let (v, rest) ← read cs
      match skipTrivia (rest.length + 1) rest with
      | ']' :: rest => return ([v], rest)
      | ',' :: rest =>
        let (vs, rest) ← listItems bound rest
        return (v :: vs, rest)
      | _ => none

/-- A key with its value. -/
def pair? (cs : List Char) : Option ((KeyPath × Setting) × List Char) := do
  let (path, rest) ← key? cs
  let (v, rest) ← read (skipBlank (← after? ['='] rest))
  return ((path, v), rest)

/-- The keys and values of a table in braces, of which there is one at least. -/
def bracedPairs : Nat → List Char → Option (List (KeyPath × Setting) × List Char)
  | 0, _ => none
  | bound + 1, cs => do
    let (p, rest) ← pair? read cs
    match skipBlank rest with
    | '\x7d' :: rest => return ([p], rest)
    | ',' :: rest =>
      let (ps, rest) ← bracedPairs bound rest
      return (p :: ps, rest)
    | _ => none

/-- A table in braces, after the opening one. -/
def braced? (cs : List Char) : Option (Setting × List Char) := do
  let (pairs, rest) ← match skipBlank cs with
    | '\x7d' :: rest => some ([], rest)
    | cs => bracedPairs read (cs.length + 1) cs
  return (.table (settingsOf (← Entries.ofPairs pairs)), rest)

end

/-- A value with lists and tables in it up to a depth. -/
def value? : Nat → List Char → Option (Setting × List Char)
  | depth, '[' :: rest =>
    match depth with
    | 0 => none
    | depth + 1 =>
      (listItems (value? depth) (rest.length + 1) rest).map fun r => (.list r.1, r.2)
  | depth, '\x7b' :: rest =>
    match depth with
    | 0 => none
    | depth + 1 => braced? (value? depth) rest
  | _, cs => scalar? cs

/-! ## Lines -/

/-- A line, up to where its end should be. -/
def line? : List Char → Option (Line × List Char)
  | '[' :: '[' :: rest => do
    let (path, rest) ← key? rest
    return (.nextHeader path, ← after? [']', ']'] rest)
  | '[' :: rest => do
    let (path, rest) ← key? rest
    return (.header path, ← after? [']'] rest)
  | cs => (pair? (value? depthLimit) cs).map fun r => (.pair r.1.1 r.1.2, r.2)

/-- The lines of a text, those that say nothing left out. -/
def lines : Nat → List Char → Option (List Line)
  | _, [] => some []
  | 0, _ => none
  | bound + 1, cs =>
    match lineEnd? cs with
    | some rest => lines bound rest
    | none => do
      let (line, rest) ← line? (skipBlank cs)
      return line :: (← lines bound (← lineEnd? rest))

/-! ## The whole file -/

/-- What a file has said so far, and the header under which its next lines stand. -/
structure Draft where
  root : Entries := []
  header : List String := []

/-- Take in one more line. -/
def Draft.add (d : Draft) : Line → Option Draft
  | .pair path v => do
    let root ← Entries.within .implied (fun _ => Entries.addValue path v) d.header .header d.root
    return { d with root }
  | .header path => do
    return { root := ← Entries.openTable path d.root, header := path.parents ++ [path.key] }
  | .nextHeader path => do
    return { root := ← Entries.openNext path d.root, header := path.parents ++ [path.key] }

/-- A text without the byte order mark at its start. -/
def afterMark : List Char → List Char
  | '\uFEFF' :: rest => rest
  | cs => cs

/-- The settings that a file writes, by their top-level keys. The whole file is no date. -/
def settings? (text : List Char) : Option (List (String × Setting)) := do
  let text := afterMark text
  let draft ← (← lines (text.length + 1) text).foldlM Draft.add {}
  match ← withDates? (.table (settingsOf draft.root)) with
  | .table entries => some entries
  | _ => none

end ControlBus.Toml
