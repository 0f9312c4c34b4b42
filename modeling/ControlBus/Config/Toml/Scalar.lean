-- Scalars of the configuration file format: strings of four kinds, truth values, numbers, and
-- dates and times.
import ControlBus.Config.Toml.Date

namespace ControlBus.Toml

/-! ## Strings -/

/-- A character by its number in hexadecimal digits. -/
def codePoint? (digits : List Char) : Option Char := do
  let n ← Text.natural? 16 digits
  if n.isValidChar then some (Char.ofNat n) else none

/-- An escape after its backslash. -/
def escape? : List Char → Option (Char × List Char)
  | [] => none
  | c :: rest =>
    if c = 'b' then some ('\x08', rest)
    else if c = 't' then some ('\t', rest)
    else if c = 'n' then some ('\n', rest)
    else if c = 'f' then some ('\x0c', rest)
    else if c = 'r' then some ('\r', rest)
    else if c = '"' then some ('"', rest)
    else if c = '\\' then some ('\\', rest)
    else if c = 'u' then
      if rest.length < 4 then none else (codePoint? (rest.take 4)).map (·, rest.drop 4)
    else if c = 'U' then
      if rest.length < 8 then none else (codePoint? (rest.take 8)).map (·, rest.drop 8)
    else none

/-- A basic string after its opening quote. Every step takes a character at least, so the length
of the text bounds the steps. -/
def basicString : Nat → List Char → Option (List Char × List Char)
  | 0, _ => none
  | _, [] => none
  | bound + 1, c :: rest =>
    if c = '"' then some ([], rest)
    else if c = '\\' then do
      let (e, rest) ← escape? rest
      let (s, rest) ← basicString bound rest
      return (e :: s, rest)
    else if isTextChar c then (basicString bound rest).map fun r => (c :: r.1, r.2)
    else none

/-- A literal string after its opening quote. -/
def literalString : List Char → Option (List Char × List Char)
  | [] => none
  | c :: rest =>
    if c = '\'' then some ([], rest)
    else if isTextChar c then (literalString rest).map fun r => (c :: r.1, r.2)
    else none

/-- Quotes within or at the end of a string of several lines: three or more end it, and up to
two before the last three still belong to it. -/
def closingQuotes (quote : Char) (cs : List Char) : Nat × Bool × List Char :=
  let n := min (cs.takeWhile (· = quote)).length 5
  if n < 3 then (n, false, cs.drop n) else (n - 3, true, cs.drop n)

/-- A line end together with all blanks and line ends after it. -/
def skipLines (cs : List Char) : Option (List Char) :=
  (newline? (skipBlank cs)).map fun rest => rest.dropWhile fun c => isBlank c || c = '\n'

/-- As `skipLines`, carriage returns before line ends included. -/
def skipAllLines : Nat → List Char → Option (List Char)
  | 0, _ => none
  | bound + 1, cs => do
    let rest ← skipLines cs
    return (skipAllLines bound rest).getD rest

/-- A string of several lines after its opening quotes; in a basic one a backslash before a line
end joins the lines. -/
def linesString (quote : Char) : Nat → List Char → Option (List Char × List Char)
  | 0, _ => none
  | _, [] => none
  | bound + 1, c :: rest =>
    if c = quote then
      let (n, closed, rest) := closingQuotes quote (c :: rest)
      if closed then some (List.replicate n quote, rest)
      else (linesString quote bound rest).map fun r => (List.replicate n quote ++ r.1, r.2)
    else if c = '\\' && quote = '"' then
      match skipAllLines (rest.length + 1) rest with
      | some rest => linesString quote bound rest
      | none => do
        let (e, rest) ← escape? rest
        let (s, rest) ← linesString quote bound rest
        return (e :: s, rest)
    else
      match newline? (c :: rest) with
      | some rest => (linesString quote bound rest).map fun r => ('\n' :: r.1, r.2)
      | none =>
        if isTextChar c then (linesString quote bound rest).map fun r => (c :: r.1, r.2)
        else none

/-- A string of one line. -/
def lineString? : List Char → Option (List Char × List Char)
  | '"' :: rest => basicString (rest.length + 1) rest
  | '\'' :: rest => literalString rest
  | _ => none

/-- A string of any kind. A line end right after three opening quotes is no part of it. -/
def string? : List Char → Option (List Char × List Char)
  | '"' :: '"' :: '"' :: rest => many '"' rest
  | '\'' :: '\'' :: '\'' :: rest => many '\'' rest
  | cs => lineString? cs
where
  many (quote : Char) (rest : List Char) : Option (List Char × List Char) :=
    let rest := (newline? rest).getD rest
    linesString quote (rest.length + 1) rest

/-! ## Numbers -/

/-- Digits of a base with single underscores between them. -/
def digitRun (base : Nat) : List Char → List Char × List Char
  | [] => ([], [])
  | c :: rest =>
    if (Text.digit? base c).isSome then
      let (ds, rest) := digitRun base rest
      (c :: ds, rest)
    else
      match c, rest with
      | '_', d :: more =>
        if (Text.digit? base d).isSome then
          let (ds, rest) := digitRun base more
          (d :: ds, rest)
        else ([], c :: rest)
      | _, _ => ([], c :: rest)

/-- At least one digit of a base, the first one no underscore. -/
def digits? (base : Nat) : List Char → Option (List Char × List Char)
  | [] => none
  | c :: rest =>
    if (Text.digit? base c).isSome then
      let (ds, rest) := digitRun base rest
      some (c :: ds, rest)
    else none

/-- Decimal digits without a needless zero in front. -/
def wholeDigits? : List Char → Option (List Char × List Char)
  | '0' :: rest => some (['0'], rest)
  | cs => digits? 10 cs

/-- A whole number in a base given by the letter after a zero. -/
def based? : List Char → Option (Int × List Char)
  | '0' :: 'x' :: rest => read 16 rest
  | '0' :: 'o' :: rest => read 8 rest
  | '0' :: 'b' :: rest => read 2 rest
  | _ => none
where
  read (base : Nat) (rest : List Char) : Option (Int × List Char) := do
    let (ds, rest) ← digits? base rest
    return (← Text.signed64? (← Text.natural? base ds), rest)

/-- Whether a text starts like a number in another base. -/
def isBased : List Char → Bool
  | '0' :: c :: _ => c = 'x' || c = 'o' || c = 'b'
  | _ => false

/-- A whole number of a signed word of 64 bits. -/
def integer? (cs : List Char) : Option (Setting × List Char) := do
  if isBased cs then
    let (n, rest) ← based? cs
    return (.whole n, rest)
  else
    let (negative, cs) := Text.Binary64.spanSign cs
    let (ds, rest) ← wholeDigits? cs
    let n ← Text.natural? 10 ds
    return (.whole (← Text.signed64? (if negative then -(n : Int) else n)), rest)

/-- A point and the digits after it. -/
def fraction? : List Char → Option (List Char × List Char)
  | '.' :: rest => (digits? 10 rest).map fun r => ('.' :: r.1, r.2)
  | _ => none

/-- An exponent. -/
def exponent? : List Char → Option (List Char × List Char)
  | c :: rest =>
    if c = 'e' || c = 'E' then
      let (negative, rest) := Text.Binary64.spanSign rest
      (digits? 10 rest).map fun r => ('e' :: (if negative then ['-'] else []) ++ r.1, r.2)
    else none
  | [] => none

/-- A decimal with a point, an exponent or both; one beyond all finite numbers is refused, but
only above. -/
def decimal? (cs : List Char) : Option (Setting × List Char) := do
  let (negative, cs) := Text.Binary64.spanSign cs
  let (ds, rest) ← wholeDigits? cs
  let (part, rest) := (fraction? rest).getD ([], rest)
  let (scale, rest) := (exponent? rest).getD ([], rest)
  if part.isEmpty && scale.isEmpty then none
  else
    let x ← Text.Binary64.decimal? negative (ds ++ part ++ scale)
    if x = .infinite false then none else some (.decimal x, rest)

/-- Infinity and no number by name. -/
def namedDecimal? (cs : List Char) : Option (Setting × List Char) :=
  let (negative, cs) := Text.Binary64.spanSign cs
  match after? ['i', 'n', 'f'] cs, after? ['n', 'a', 'n'] cs with
  | some rest, _ => some (.decimal (.infinite negative), rest)
  | none, some rest => some (.decimal .nan, rest)
  | none, none => none

/-! ## Any scalar -/

/-- A number, a date or a time. -/
def number? (cs : List Char) : Option (Setting × List Char) :=
  (dateValue? cs).or ((decimal? cs).or ((namedDecimal? cs).or (integer? cs)))

/-- A scalar. -/
def scalar? (cs : List Char) : Option (Setting × List Char) :=
  match cs with
  | [] => none
  | c :: _ =>
    if c = '"' || c = '\'' then (string? cs).map fun r => (.text (String.ofList r.1), r.2)
    else if c = 't' then (after? ['t', 'r', 'u', 'e'] cs).map (.flag true, ·)
    else if c = 'f' then (after? ['f', 'a', 'l', 's', 'e'] cs).map (.flag false, ·)
    else number? cs

end ControlBus.Toml
