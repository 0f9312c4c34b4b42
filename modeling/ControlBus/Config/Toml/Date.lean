-- Dates and times of the configuration file format. A date stands in a file as it is or as the
-- text under a mark in a table; either way it becomes a text of one form. Before them, what all
-- readers of the format share: line ends, blanks, words, and the characters of plain text.
import ControlBus.Config.Setting

namespace ControlBus.Toml

/-! ## What all readers share

A reader takes a value from the start of a text and answers what follows it. -/

/-- What follows a line end at the start of a text. -/
def newline? : List Char → Option (List Char)
  | '\n' :: rest => some rest
  | '\r' :: '\n' :: rest => some rest
  | _ => none

def isBlank (c : Char) : Bool := c = ' ' || c = '\t'

def skipBlank (cs : List Char) : List Char := cs.dropWhile isBlank

/-- Characters that may stand in comments and literal strings: no controls but the tab. -/
def isTextChar (c : Char) : Bool := c = '\t' || (32 ≤ c.toNat && c.toNat ≠ 127)

/-- What follows `word` at the start of a text. -/
def after? (word cs : List Char) : Option (List Char) :=
  if word.isPrefixOf cs then some (cs.drop word.length) else none

/-! ## Dates -/

/-- Exactly `n` digits that write a number between two bounds. -/
def field? (n low high : Nat) (cs : List Char) : Option (Nat × List Char) := do
  if cs.length < n then none
  else
    let v ← Text.natural? 10 (cs.take n)
    if low ≤ v && v ≤ high then some (v, cs.drop n) else none

def isLeapYear (y : Nat) : Bool := y % 4 = 0 && (y % 100 ≠ 0 || y % 400 = 0)

def daysIn (year month : Nat) : Nat :=
  if month = 2 then if isLeapYear year then 29 else 28
  else if [4, 6, 9, 11].contains month then 30
  else 31

/-- A number with leading zeros up to a width. -/
def padded (width n : Nat) : List Char :=
  let ds := Nat.toDigits 10 n
  List.replicate (width - ds.length) '0' ++ ds

/-- A date. -/
def date? (cs : List Char) : Option (List Char × List Char) := do
  let (year, cs) ← field? 4 0 9999 cs
  let cs ← after? ['-'] cs
  let (month, cs) ← field? 2 1 12 cs
  let cs ← after? ['-'] cs
  let (day, cs) ← field? 2 1 (daysIn year month) cs
  return (padded 4 year ++ '-' :: padded 2 month ++ '-' :: padded 2 day, cs)

/-! ## Times -/

/-- The greatest numbers that a time may have. -/
structure TimeBounds where
  hour : Nat
  offsetHour : Nat
  offsetMinute : Nat
deriving Repr, DecidableEq

/-- A time that stands in a file as it is keeps to the clock. -/
def TimeBounds.plain : TimeBounds := { hour := 23, offsetHour := 23, offsetMinute := 59 }

/-- A time under a mark may name the end of the day, and its distance from universal time may
be any number of hours and minutes that make no more than a day. -/
def TimeBounds.marked : TimeBounds := { hour := 24, offsetHour := 99, offsetMinute := 99 }

/-- The digits after the point of a second: nine of them count, and none stands idle at the
end. -/
def secondFraction? : List Char → Option (List Char × List Char)
  | '.' :: rest =>
    match Text.Binary64.spanDigits rest with
    | ([], _) => none
    | (ds, rest) =>
      let kept := ((ds.take 9).reverse.dropWhile (· = '0')).reverse
      some (if kept.isEmpty then [] else '.' :: kept, rest)
  | _ => none

/-- A time of day. -/
def time? (bounds : TimeBounds) (cs : List Char) : Option (List Char × List Char) := do
  let (hour, cs) ← field? 2 0 bounds.hour cs
  let cs ← after? [':'] cs
  let (minute, cs) ← field? 2 0 59 cs
  let cs ← after? [':'] cs
  let (second, cs) ← field? 2 0 60 cs
  let (part, cs) := (secondFraction? cs).getD ([], cs)
  return (padded 2 hour ++ ':' :: padded 2 minute ++ ':' :: padded 2 second ++ part, cs)

/-- The minutes of a day. -/
def dayMinutes : Nat := 24 * 60

/-- A distance from universal time; no distance at all has a plus. -/
def offset? (bounds : TimeBounds) : List Char → Option (List Char × List Char)
  | [] => none
  | c :: rest =>
    if c = 'Z' || c = 'z' then some (['Z'], rest)
    else if c = '+' || c = '-' then do
      let (hour, rest) ← field? 2 0 bounds.offsetHour rest
      let rest ← after? [':'] rest
      let (minute, rest) ← field? 2 0 bounds.offsetMinute rest
      let total := hour * 60 + minute
      if dayMinutes < total then none
      else
        let sign := if total = 0 then '+' else c
        return (sign :: padded 2 (total / 60) ++ ':' :: padded 2 (total % 60), rest)
    else none

/-- A time after a date, with or without a distance from universal time. -/
def dayTime? (bounds : TimeBounds) : List Char → Option (List Char × List Char)
  | [] => none
  | c :: rest =>
    if c = 'T' || c = 't' || c = ' ' then do
      let (time, rest) ← time? bounds rest
      let (offset, rest) := (offset? bounds rest).getD ([], rest)
      return ('T' :: time ++ offset, rest)
    else none

/-- A date, a time of day, or both, in the one form in which they are kept. -/
def dateTime? (bounds : TimeBounds) (cs : List Char) : Option (List Char × List Char) :=
  match date? cs with
  | some (date, rest) =>
    let (time, rest) := (dayTime? bounds rest).getD ([], rest)
    some (date ++ time, rest)
  | none => time? bounds cs

/-! ## Marked dates -/

/-- The key of the format for a table that stands for a date. -/
def dateMark : String := "$__toml_private_datetime"

/-- A date in a file, as the table that stands for it. -/
def dateValue? (cs : List Char) : Option (Setting × List Char) :=
  (dateTime? .plain cs).map fun r => (.table [(dateMark, .text (String.ofList r.1))], r.2)

/-- What stands under the mark of a table; only its first key can be one. -/
def marked? : List (String × Setting) → Option Setting
  | (key, v) :: _ => if key = dateMark then some v else none
  | [] => none

/-- The date that a setting under a mark writes, as a text of the one form. -/
def dateText? : Setting → Option String
  | .text s =>
    match dateTime? .marked s.toList with
    | some (date, []) => some (String.ofList date)
    | _ => none
  | _ => none

mutual

/-- A setting with the texts of dates in place of the tables that stand for them; none if what
is under a mark is no date. -/
def withDates? : Setting → Option Setting
  | .list vs => (itemsWithDates? vs).map .list
  | .table es =>
    match marked? es with
    | some v => (dateText? v).map .text
    | none => (entriesWithDates? es).map .table
  | v => some v

/-- The items of a list with their dates. -/
def itemsWithDates? : List Setting → Option (List Setting)
  | [] => some []
  | v :: rest => do return (← withDates? v) :: (← itemsWithDates? rest)

/-- The entries of a table with their dates. -/
def entriesWithDates? : List (String × Setting) → Option (List (String × Setting))
  | [] => some []
  | (key, v) :: rest => do return (key, ← withDates? v) :: (← entriesWithDates? rest)

end

end ControlBus.Toml
