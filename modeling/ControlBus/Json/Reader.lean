-- Reading a value from its text. Only spaces, tabs and line ends may stand between tokens,
-- and nothing but those may follow the value.
import ControlBus.Json.Value
import ControlBus.Text.Integer

namespace ControlBus.Json

/-- What may stand between tokens. -/
def isBlank (c : Char) : Bool := c = ' ' || c = '\t' || c = '\n' || c = '\r'

def skipBlank (cs : List Char) : List Char := cs.dropWhile isBlank

/-! ## Strings -/

/-- A string is written as plain characters and as escaped 16-bit codes. -/
inductive StringUnit where
  | plain (c : Char)
  | code (n : Nat)
deriving Repr, DecidableEq

/-- The character of a one-letter escape. -/
def shortEscape? : Char → Option Char
  | '"' => some '"'
  | '\\' => some '\\'
  | '/' => some '/'
  | 'b' => some '\x08'
  | 'f' => some '\x0c'
  | 'n' => some '\n'
  | 'r' => some '\r'
  | 't' => some '\t'
  | _ => none

/-- The units of a string up to its closing quote, and what follows the quote. -/
def stringUnits : List Char → Option (List StringUnit × List Char)
  | [] => none
  | c :: rest =>
    if c = '"' then some ([], rest)
    else if c = '\\' then
      match rest with
      | [] => none
      | e :: rest =>
        if e = 'u' then
          match rest with
          | a :: b :: c :: d :: rest => do
            let n ← Text.natural? 16 [a, b, c, d]
            let (units, rest) ← stringUnits rest
            return (.code n :: units, rest)
          | _ => none
        else do
          let c ← shortEscape? e
          let (units, rest) ← stringUnits rest
          return (.plain c :: units, rest)
    else if c.toNat < 32 then none
    else do
      let (units, rest) ← stringUnits rest
      return (.plain c :: units, rest)

def isHighSurrogate (n : Nat) : Bool := 0xD800 ≤ n && n < 0xDC00
def isLowSurrogate (n : Nat) : Bool := 0xDC00 ≤ n && n < 0xE000

/-- The characters that units stand for; two surrogates in a row make one character, and one
alone makes none. -/
def unitsText : List StringUnit → Option (List Char)
  | [] => some []
  | .plain c :: rest => (unitsText rest).map (c :: ·)
  | .code n :: rest =>
    if isHighSurrogate n then
      match rest with
      | .code m :: rest =>
        if isLowSurrogate m then
          (unitsText rest).map (Char.ofNat (0x10000 + (n - 0xD800) * 0x400 + (m - 0xDC00)) :: ·)
        else none
      | _ => none
    else if isLowSurrogate n then none
    else (unitsText rest).map (Char.ofNat n :: ·)

/-- A string after its opening quote. -/
def readString (cs : List Char) : Option (Option String × List Char) := do
  let (units, rest) ← stringUnits cs
  return ((unitsText units).map String.ofList, rest)

/-! ## Numbers and names -/

def isDigit (c : Char) : Bool := '0' ≤ c && c ≤ '9'

/-- At least one digit, and what follows the run. -/
def digits1 (cs : List Char) : Option (List Char × List Char) :=
  match cs.span isDigit with
  | ([], _) => none
  | (ds, rest) => some (ds, rest)

/-- The digits before the point: a lone zero, or a run that starts with another digit. -/
def wholeDigits : List Char → Option (List Char × List Char)
  | '0' :: rest => some (['0'], rest)
  | cs => digits1 cs

/-- A point and the digits after it, if there is a point. -/
def fraction : List Char → Option (Bool × List Char)
  | '.' :: rest => (digits1 rest).map fun r => (true, r.2)
  | rest => some (false, rest)

/-- An exponent, if there is one. -/
def exponent : List Char → Option (Bool × List Char)
  | c :: rest =>
    if c = 'e' || c = 'E' then
      let rest := match rest with
        | s :: more => if s = '+' || s = '-' then more else rest
        | [] => rest
      (digits1 rest).map fun r => (true, r.2)
    else some (false, c :: rest)
  | [] => some (false, [])

/-- A number; a whole one keeps its value, but a negative zero is no whole number. -/
def readNumber (cs : List Char) : Option (Option Int × List Char) := do
  let (negative, cs) := match cs with
    | '-' :: rest => (true, rest)
    | _ => (false, cs)
  let (ds, rest) ← wholeDigits cs
  let (pointed, rest) ← fraction rest
  let (scaled, rest) ← exponent rest
  let n ← Text.natural? 10 ds
  let whole : Option Int :=
    if pointed || scaled || (negative && n = 0) then none
    else some (if negative then -(n : Int) else n)
  return (whole, rest)

/-- What follows `word` at the start of a text. -/
def expect (word : List Char) (cs : List Char) : Option (List Char) :=
  if word.isPrefixOf cs then some (cs.drop word.length) else none

/-! ## Values -/

mutual

/-- A value at the start of a text, and what follows it. The first argument bounds the
nesting and the length of what is read. -/
def readValue : Nat → List Char → Option (Json × List Char)
  | 0, _ => none
  | fuel + 1, cs =>
    match skipBlank cs with
    | [] => none
    | c :: rest =>
      if c = '\x7b' then (readMembers fuel true rest).map fun r => (object r.1, r.2)
      else if c = '[' then (readItems fuel true rest).map fun r => (array r.1, r.2)
      else if c = '"' then (readString rest).map fun r => (string r.1, r.2)
      else if c = 't' then (expect ['r', 'u', 'e'] rest).map (bool true, ·)
      else if c = 'f' then (expect ['a', 'l', 's', 'e'] rest).map (bool false, ·)
      else if c = 'n' then (expect ['u', 'l', 'l'] rest).map (null, ·)
      else (readNumber (c :: rest)).map fun r => (number r.1, r.2)

/-- The items of an array up to its closing bracket; only before the first may it close. -/
def readItems : Nat → Bool → List Char → Option (List Json × List Char)
  | 0, _, _ => none
  | fuel + 1, first, cs =>
    match skipBlank cs with
    | [] => none
    | c :: rest =>
      if c = ']' then if first then some ([], rest) else none
      else do
        let (item, rest) ← readValue fuel (c :: rest)
        match skipBlank rest with
        | ']' :: rest => return ([item], rest)
        | ',' :: rest =>
          let (items, rest) ← readItems fuel false rest
          return (item :: items, rest)
        | _ => none

/-- The members of an object up to its closing brace; only before the first may it close. -/
def readMembers : Nat → Bool → List Char → Option (List (Option String × Json) × List Char)
  | 0, _, _ => none
  | fuel + 1, first, cs =>
    match skipBlank cs with
    | [] => none
    | c :: rest =>
      if c = '\x7d' then if first then some ([], rest) else none
      else if c = '"' then do
        let (name, rest) ← readString rest
        let rest ← expect [':'] (skipBlank rest)
        let (value, rest) ← readValue fuel rest
        match skipBlank rest with
        | '\x7d' :: rest => return ([(name, value)], rest)
        | ',' :: rest =>
          let (members, rest) ← readMembers fuel false rest
          return ((name, value) :: members, rest)
        | _ => none
      else none

end

/-- The value that a whole text is. -/
def ofChars? (cs : List Char) : Option Json := do
  let (value, rest) ← readValue (2 * cs.length + 2) cs
  if (skipBlank rest).isEmpty then some value else none

/-- The value that a whole text is. -/
def ofString? (s : String) : Option Json := ofChars? s.toList

end ControlBus.Json
