-- Publish and subscribe: every subscription has an inbox of bounded size. A notification
-- goes once to each subscription that asked for its channel; a full inbox loses and counts it.
import ControlBus.Text.Glob

namespace ControlBus

/-- A published payload as a subscription gets it. -/
structure Notification where
  channel : String
  /-- The pattern that took the channel, if the channel was not asked for by name. -/
  pattern : Option String
  payload : String
deriving Repr, DecidableEq

/-- A subscription and what has arrived for it. -/
structure Subscription where
  id : Nat
  channels : List String
  patterns : List String
  /-- Notifications not yet read, oldest first. -/
  inbox : List Notification := []
  /-- Notifications lost to a full inbox. -/
  dropped : Nat := 0
  /-- Whether somebody still holds the receiving end. -/
  held : Bool := true
deriving Repr, DecidableEq

/-- What became of a notification at one subscription. -/
inductive Delivery where
  | ignored
  | accepted
  | lost
  /-- Nobody holds the receiving end any more. -/
  | abandoned
deriving Repr, DecidableEq

namespace Subscription

/-- Whether a subscription wants a channel, and by which pattern. -/
def interest (s : Subscription) (channel : String) : Option (Option String) :=
  if s.channels.contains channel then some none
  else (s.patterns.find? (Text.Glob.accepts · channel)).map some

/-- Offer a payload to a subscription whose inbox holds up to `capacity` notifications. -/
def offer (capacity : Nat) (channel payload : String) (s : Subscription) :
    Delivery × Subscription :=
  match s.interest channel with
  | none => (.ignored, s)
  | some pattern =>
    if !s.held then (.abandoned, s)
    else if s.inbox.length < capacity then
      (.accepted, { s with inbox := s.inbox ++ [⟨channel, pattern, payload⟩] })
    else (.lost, { s with dropped := s.dropped + 1 })

end Subscription

/-- The subscriptions of a store. -/
structure Switchboard where
  subscriptions : List Subscription := []
  nextId : Nat := 1
  /-- The size of every inbox. -/
  capacity : Nat
  /-- Whether the store that publishes here still exists. -/
  live : Bool := true
deriving Repr, DecidableEq

namespace Switchboard

/-- A switchboard whose inboxes hold `size` notifications, but at least one. -/
def ofBufferSize (size : Nat) : Switchboard := { capacity := max size 1 }

/-- Register a subscription; answers its number. -/
def subscribe (channels patterns : List String) (b : Switchboard) : Nat × Switchboard :=
  (b.nextId, { b with
    subscriptions := b.subscriptions ++ [{ id := b.nextId, channels, patterns }],
    nextId := b.nextId + 1 })

/-- Offer a payload to every subscription; answers how many took it. Abandoned subscriptions
that it would have reached are struck off. -/
def publish (channel payload : String) (b : Switchboard) : Nat × Switchboard :=
  let offered := b.subscriptions.map (Subscription.offer b.capacity channel payload)
  (offered.countP (·.1 = .accepted),
   { b with subscriptions := (offered.filter (·.1 ≠ .abandoned)).map (·.2) })

/-- Publish payloads one after the other. -/
def publishAll (payloads : List (String × String)) (b : Switchboard) : Switchboard :=
  payloads.foldl (fun b p => (b.publish p.1 p.2).2) b

def subscription? (b : Switchboard) (id : Nat) : Option Subscription :=
  b.subscriptions.find? (·.id = id)

/-- Change the subscription with this number. -/
def adjust (b : Switchboard) (id : Nat) (f : Subscription → Subscription) : Switchboard :=
  { b with subscriptions := b.subscriptions.map fun s => if s.id = id then f s else s }

def inbox (b : Switchboard) (id : Nat) : List Notification :=
  ((b.subscription? id).map (·.inbox)).getD []

/-- How many notifications a subscription has lost. -/
def dropped (b : Switchboard) (id : Nat) : Nat := ((b.subscription? id).map (·.dropped)).getD 0

/-- Let go of the receiving end of a subscription. -/
def abandon (id : Nat) (b : Switchboard) : Switchboard := b.adjust id ({ · with held := false })

/-- End all notifications: the store is gone. What has arrived can still be read. -/
def close (b : Switchboard) : Switchboard := { b with live := false }

/-- Read the oldest `n` notifications of a subscription. -/
def read (n : Nat) (id : Nat) (b : Switchboard) : List Notification × Switchboard :=
  ((b.inbox id).take n, b.adjust id fun s => { s with inbox := s.inbox.drop n })

/-- Whether a subscription will never get another notification and has none left. -/
def exhausted (b : Switchboard) (id : Nat) : Bool := !b.live && (b.inbox id).isEmpty

end Switchboard

end ControlBus
