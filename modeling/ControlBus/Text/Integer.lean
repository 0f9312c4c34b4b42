-- Whole numbers in text and the ranges of the machine words that hold them.
namespace ControlBus.Text

/-- The largest values of the word sizes in use. -/
def maxUnsigned64 : Nat := 18446744073709551615
def maxUnsigned32 : Nat := 4294967295
def maxSigned64 : Nat := 9223372036854775807
def maxSigned32 : Nat := 2147483647

/-- The value of a digit character in a base up to sixteen. -/
def digit? (base : Nat) (c : Char) : Option Nat :=
  let v :=
    if '0' ≤ c && c ≤ '9' then some (c.toNat - '0'.toNat)
    else if 'a' ≤ c && c ≤ 'f' then some (c.toNat - 'a'.toNat + 10)
    else if 'A' ≤ c && c ≤ 'F' then some (c.toNat - 'A'.toNat + 10)
    else none
  v.filter (· < base)

/-- The number written by a run of digits of a base; no digits, no number. -/
def natural? (base : Nat) : List Char → Option Nat
  | [] => none
  | digits => digits.foldl (fun n c => do return (← n) * base + (← digit? base c)) (some 0)

/-- A decimal number with an optional sign. -/
def integer? : List Char → Option Int
  | '-' :: digits => (natural? 10 digits).map fun n => -(n : Int)
  | '+' :: digits => (natural? 10 digits).map Int.ofNat
  | digits => (natural? 10 digits).map Int.ofNat

/-- A number if it lies between the bounds. -/
def within? (low high : Int) (n : Int) : Option Int := if low ≤ n ∧ n ≤ high then some n else none

/-- A number that fits a signed word of 64 bits. -/
def signed64? (n : Int) : Option Int := within? (-(maxSigned64 : Int) - 1) maxSigned64 n

/-- A number that fits a signed word of 32 bits. -/
def signed32? (n : Int) : Option Int := within? (-(maxSigned32 : Int) - 1) maxSigned32 n

/-- A number that fits an unsigned word of 64 bits. -/
def unsigned64? (n : Int) : Option Nat := (within? 0 maxUnsigned64 n).map Int.toNat

/-- A number that fits an unsigned word of 32 bits. -/
def unsigned32? (n : Int) : Option Nat := (within? 0 maxUnsigned32 n).map Int.toNat

/-- A signed decimal number, as a reader of unsigned words takes it: no minus sign. -/
def unsignedText64? : List Char → Option Nat
  | '+' :: digits => (natural? 10 digits).filter (· ≤ maxUnsigned64)
  | digits => (natural? 10 digits).filter (· ≤ maxUnsigned64)

end ControlBus.Text
