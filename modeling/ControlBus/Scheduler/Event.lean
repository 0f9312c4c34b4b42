-- An event that anybody can signal. Signals add up until the event is looked at, and one
-- dispatch takes all that were seen.
import ControlBus.Channel.Signal

namespace ControlBus

/-- A signalled event. -/
structure Event where
  name : String
  /-- Signals given and not yet seen. -/
  signals : Nat := 0
  /-- Signals seen and not yet dispatched. -/
  buffered : Nat := 0
deriving Repr, DecidableEq

namespace Event

/-- Signal the event `n` times. -/
def notify (n : Nat) (e : Event) : Event := { e with signals := e.signals + n }

/-- Take in the signals. -/
def poll (e : Event) : Reading × Event :=
  if e.signals = 0 then (.pending, e)
  else (.units e.signals, { e with signals := 0, buffered := e.buffered + e.signals })

def hasData (e : Event) : Bool := 0 < e.buffered

/-- Account for one dispatch. -/
def afterRead (e : Event) : Event := { e with buffered := 0 }

end Event

end ControlBus
