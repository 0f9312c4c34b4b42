-- A periodic timer. Ticks that nobody looked at are not made up for one by one: a timer that
-- is late goes on with the next instant of its grid.
import ControlBus.Channel.Signal

namespace ControlBus

/-- A timer on a clock that counts milliseconds. -/
structure Timer where
  name : String
  period : Nat
  /-- When the next tick is due. -/
  due : Nat
  /-- Ticks seen and not yet dispatched. -/
  expirations : Nat := 0
deriving Repr, DecidableEq

namespace Timer

/-- How late a tick may be and still count as on time. -/
def tolerance : Nat := 5

/-- A timer whose first tick comes one period from now. -/
def start (name : String) (period now : Nat) : Timer := { name, period, due := now + period }

/-- Begin a new period now and forget the ticks seen. -/
def reset (now : Nat) (t : Timer) : Timer := { t with due := now + t.period, expirations := 0 }

/-- When the tick after the one due at `due` comes, if that one is taken at `now`. -/
def following (period now due : Nat) : Nat :=
  if due + tolerance < now then now + period - (now - due) % period else due + period

/-- Take every tick that is due, at most `bound` of them: how many, and when the next is due. -/
def ticks (period now : Nat) : Nat → Nat → Nat × Nat
  | 0, due => (0, due)
  | bound + 1, due =>
    if due ≤ now then
      let (n, due) := ticks period now bound (following period now due)
      (n + 1, due)
    else (0, due)

/-- Take in the ticks that are due. A tick moves the grid by a millisecond at least, which
bounds their number. -/
def poll (now : Nat) (t : Timer) : Reading × Timer :=
  let (n, due) := ticks t.period now (now + 1 - t.due) t.due
  (if n = 0 then .pending else .units n, { t with due, expirations := t.expirations + n })

def hasData (t : Timer) : Bool := 0 < t.expirations

/-- Account for one dispatch. -/
def afterRead (t : Timer) : Timer := { t with expirations := 0 }

end Timer

end ControlBus
