-- A set from which a member is drawn at random in one step: its members in a row, and the
-- place of each. The last member fills the place of the one that leaves.
import ControlBus.Assoc

namespace ControlBus

/-- Members in a row, and for each member its place in the row. -/
structure RandomSet where
  members : List String := []
  places : Assoc String Nat := []
deriving Repr, DecidableEq

namespace RandomSet

def size (s : RandomSet) : Nat := s.members.length

def isEmpty (s : RandomSet) : Bool := s.members.isEmpty

/-- A row without the entry at `place`, which the last entry takes. -/
def fillGap (row : List String) (place : Nat) : List String :=
  match row.getLast? with
  | some last => (row.set place last).dropLast
  | none => []

/-- Add a member; answers whether it was new. -/
def insert (s : RandomSet) (member : String) : Bool × RandomSet :=
  if Assoc.has s.places member then (false, s)
  else
    (true, { members := s.members ++ [member],
             places := Assoc.put s.places member s.members.length })

/-- Free a place whose member is already out of the index, and note where the last member
went. -/
def vacate (s : RandomSet) (place : Nat) : RandomSet :=
  let row := fillGap s.members place
  { members := row,
    places := match row[place]? with
      | some moved => Assoc.put s.places moved place
      | none => s.places }

/-- Remove a member; answers whether it was there. -/
def remove (s : RandomSet) (member : String) : Bool × RandomSet :=
  match Assoc.get? s.places member with
  | some place => (true, { s with places := Assoc.erase s.places member }.vacate place)
  | none => (false, s)

/-- Draw the member at a place. -/
def drawAt (s : RandomSet) (place : Nat) : Option (String × RandomSet) :=
  match s.members[place]? with
  | some member => some (member, { s with places := Assoc.erase s.places member }.vacate place)
  | none => none

/-- Draw up to `max` members. Each number of `draws` picks one of the members left, counted
round the row; without numbers the first is drawn. Answers the members and the numbers left. -/
def drawMany : Nat → List Nat → RandomSet → List String × List Nat × RandomSet
  | 0, draws, s => ([], draws, s)
  | max + 1, draws, s =>
    match s.drawAt (draws.headD 0 % s.size) with
    | some (member, s) =>
      let (members, draws, s) := drawMany max draws.tail s
      (member :: members, draws, s)
    | none => ([], draws, s)

end RandomSet

end ControlBus
