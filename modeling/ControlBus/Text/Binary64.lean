-- Binary floating-point numbers of 64 bits, kept exactly: reading a decimal to the nearest
-- one, rounding one to a whole number, and the shortest decimal that reads back.
import ControlBus.Text.Integer

namespace ControlBus.Text

/-- A floating-point number. A finite one is `mantissa * 2 ^ exponent` up to sign. -/
inductive Binary64 where
  | nan
  | infinite (negative : Bool)
  | finite (negative : Bool) (mantissa : Nat) (exponent : Int)
deriving Repr, DecidableEq

namespace Binary64

/-- The smallest exponent, that of the numbers nearest to zero. -/
def minExponent : Int := -1074

/-- The largest exponent of a finite number. -/
def maxExponent : Int := 971

/-- Numbers have mantissas below this. -/
def mantissaEnd : Nat := Nat.pow 2 53

/-- `num / den` to the nearest whole number, a half to the even one. -/
def divHalfEven (num den : Nat) : Nat :=
  let q := num / den
  let r := num % den
  if 2 * r < den then q else if den < 2 * r then q + 1 else q + q % 2

/-- `num / den * 2 ^ -e` as a fraction. -/
def scaled (num den : Nat) (e : Int) : Nat × Nat :=
  if 0 ≤ e then (num, den * Nat.pow 2 e.toNat) else (num * Nat.pow 2 (-e).toNat, den)

/-- The number nearest to a positive fraction. -/
def nearest (negative : Bool) (num den : Nat) : Binary64 :=
  let guess : Int := (Nat.log2 num : Int) - Nat.log2 den - 53
  let (n, d) := scaled num den guess
  let above := if n / d < mantissaEnd then 0 else if n / d < 2 * mantissaEnd then 1 else 2
  let e := max (guess + above) minExponent
  let (n, d) := scaled num den e
  let m := divHalfEven n d
  let (m, e) := if m < mantissaEnd then (m, e) else (m / 2, e + 1)
  if maxExponent < e then infinite negative else finite negative m e

/-- How many decimal digits a number has. -/
def digitCount (n : Nat) : Nat := (Nat.toDigits 10 n).length

/-- The number nearest to `digits * 10 ^ scale`. -/
def ofDecimal (negative : Bool) (digits : Nat) (scale : Int) : Binary64 :=
  let size := digitCount digits + scale
  if digits = 0 || size < -330 then finite negative 0 minExponent
  else if 320 < size then infinite negative
  else if 0 ≤ scale then nearest negative (digits * Nat.pow 10 scale.toNat) 1
  else nearest negative digits (Nat.pow 10 (-scale).toNat)

/-! ## Reading -/

/-- The digits at the start of a text, and what follows them. -/
def spanDigits (cs : List Char) : List Char × List Char := cs.span fun c => '0' ≤ c && c ≤ '9'

/-- A sign at the start of a text: whether it is a minus, and what follows. -/
def spanSign : List Char → Bool × List Char
  | '-' :: rest => (true, rest)
  | '+' :: rest => (false, rest)
  | rest => (false, rest)

/-- A decimal exponent that ends a text; nothing is none. -/
def exponent? : List Char → Option Int
  | [] => some 0
  | c :: rest =>
    if c = 'e' || c = 'E' then
      let (negative, digits) := spanSign rest
      (natural? 10 digits).map fun n => if negative then -(n : Int) else n
    else none

/-- An unsigned decimal: digits with a point before, among or after them, and an exponent. -/
def decimal? (negative : Bool) (cs : List Char) : Option Binary64 :=
  let (whole, rest) := spanDigits cs
  let (part, rest) := match rest with
    | '.' :: rest => spanDigits rest
    | _ => ([], rest)
  do
    let digits ← natural? 10 (whole ++ part)
    return ofDecimal negative digits ((← exponent? rest) - part.length)

/-- The number that a text writes: a decimal, or the name of infinity or of no number. -/
def ofChars? (cs : List Char) : Option Binary64 :=
  let (negative, rest) := spanSign cs
  let name := String.ofList (rest.map Char.toLower)
  if name = "inf" || name = "infinity" then some (infinite negative)
  else if name = "nan" then some nan
  else decimal? negative rest

/-! ## Whole numbers -/

/-- The magnitude to the nearest whole number, a half away from zero. -/
def roundedMagnitude (mantissa : Nat) (exponent : Int) : Nat :=
  if 0 ≤ exponent then mantissa * Nat.pow 2 exponent.toNat
  else
    let d := Nat.pow 2 (-exponent).toNat
    (2 * mantissa + d) / (2 * d)

/-- The nearest whole number between two bounds; no number counts as zero. -/
def toIntWithin (low high : Int) : Binary64 → Int
  | nan => 0
  | infinite negative => if negative then low else high
  | finite negative m e =>
    let n : Int := roundedMagnitude m e
    max low (min high (if negative then -n else n))

/-- Whether the number is zero, of either sign. -/
def isZero : Binary64 → Bool
  | finite _ m _ => m = 0
  | _ => false

/-! ## Writing -/

/-- The magnitudes that read as `m * 2 ^ e`, in quarters of the last place: the lowest and the
highest. A power of two has a nearer neighbour below. -/
def readingRange (m : Nat) (e : Int) : Nat × Nat :=
  (if m = mantissaEnd / 2 && minExponent < e then 4 * m - 1 else 4 * m - 2, 4 * m + 2)

/-- `q * 2 ^ (e - 2) / 10 ^ k` as a fraction. -/
def quarters (q : Nat) (e k : Int) : Nat × Nat :=
  let (n, d) := scaled q 1 (2 - e)
  if 0 ≤ k then (n, d * Nat.pow 10 k.toNat) else (n * Nat.pow 10 (-k).toNat, d)

/-- Whether `c * 10 ^ k` reads as `m * 2 ^ e`. The ends of the range do so for an even
mantissa. -/
def readsBack (m : Nat) (e k : Int) (c : Nat) : Bool :=
  let range := readingRange m e
  let (ln, ld) := quarters range.1 e k
  let (hn, hd) := quarters range.2 e k
  if m % 2 = 0 then ln ≤ c * ld && c * hd ≤ hn else ln < c * ld && c * hd < hn

/-- The shortest decimal that reads as `m * 2 ^ e`, sought on grids of falling step `10 ^ k`;
of two on one grid the nearer, and of two equally near the greater. -/
def shortest (m : Nat) (e : Int) : Nat → Int → Nat × Int
  | 0, k => (0, k)
  | steps + 1, k =>
    let (n, d) := quarters (4 * m) e k
    let low := n / d
    let lowReads := 0 < low && readsBack m e k low
    let highReads := readsBack m e k (low + 1)
    if lowReads && (!highReads || 2 * (n % d) < d) then (low, k)
    else if highReads then (low + 1, k)
    else shortest m e steps (k - 1)

/-- A decimal written out with a point but without an exponent. -/
def positional (digits : Nat) (k : Int) : List Char :=
  let ds := Nat.toDigits 10 digits
  if 0 ≤ k then ds ++ List.replicate k.toNat '0'
  else
    let places := (-k).toNat
    let padded := List.replicate (places + 1 - ds.length) '0' ++ ds
    let whole := padded.length - places
    padded.take whole ++ '.' :: padded.drop whole

/-- The text of a number: the fewest digits that read back, without an exponent. -/
def text : Binary64 → String
  | nan => "NaN"
  | infinite negative => if negative then "-inf" else "inf"
  | finite negative m e =>
    let sign := if negative then ['-'] else []
    if m = 0 then String.ofList (sign ++ ['0'])
    else
      let (n, d) := quarters (4 * m) e 0
      let top : Int := if n < d then -((digitCount (d / n) : Int)) + 1 else digitCount (n / d)
      let (digits, k) := shortest m e 24 top
      String.ofList (sign ++ positional digits k)

end Binary64

end ControlBus.Text
