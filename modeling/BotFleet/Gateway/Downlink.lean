import BotFleet.Gateway.Inbound

/-!
# From a gateway to its session

A reader looks at what arrives, one item at a time. It notes where the avatar is, and then hands the
event of a message over; it waits while too many events have not been received.

* `Downlink.Reader`, `Downlink`: what the reader is doing, and what it shares with its session;
* `Downlink.step`: the reader's next step;
* `Downlink.arrive`, `Downlink.receive`, `Downlink.dropReceiver`, `Downlink.abort`: what happens to
  it;
* `Downlink.drain`: the reader runs while its session receives everything.
-/

namespace BotFleet

namespace Downlink

/-- What the reader is doing; after the last event it ends. -/
inductive Reader where
  | reading
  | delivering (event : Client.Event) (last : Bool)
  | ended
deriving DecidableEq, Inhabited

/-- How many events may wait for their receiver. -/
def capacity : Nat := 32

end Downlink

/-- The reading side of a connection. -/
structure Downlink where
  /-- What has arrived and has not been looked at. -/
  incoming : List Inbound := []
  reader : Downlink.Reader := .reading
  /-- Where the avatar is known to be. -/
  position : Option Point := none
  /-- Events that have not been received. -/
  waiting : List Client.Event := []
  /-- Somebody may receive events. -/
  receiving : Bool := true
deriving DecidableEq, Inhabited

namespace Downlink

/-! ## What happens to it -/

/-- Another item arrives. -/
def arrive (d : Downlink) (item : Inbound) : Downlink :=
  { d with incoming := d.incoming ++ [item] }

/-- Receive an event, if one waits. -/
def receive (d : Downlink) : Downlink × Option Client.Event :=
  match d.waiting with
  | e :: rest => ({ d with waiting := rest }, some e)
  | [] => (d, none)

/-- Nobody is going to receive events any more. -/
def dropReceiver (d : Downlink) : Downlink := { d with receiving := false, waiting := [] }

/-- The reader is brought to its end. -/
def abort (d : Downlink) : Downlink := { d with reader := .ended }

/-- No more events are going to be received. -/
def isOver (d : Downlink) : Bool := !d.receiving || (d.reader = .ended && d.waiting.isEmpty)

/-! ## The reader -/

/-- Note where a message says that the avatar is. -/
def notePosition (d : Downlink) (m : ServerMessage) : Downlink :=
  match m.position? with
  | some p => { d with position := some p }
  | none => d

/-- Look at an item. -/
def look (d : Downlink) (item : Inbound) : Downlink :=
  match item.farewell?, item.message? with
  | some e, _ => { d with reader := .delivering e true }
  | none, some m =>
    let d := d.notePosition m
    match m.event? with
    | some e => { d with reader := .delivering e m.isEnd }
    | none => d
  | none, none => d

/-- Hand an event over; without a receiver the reader ends, and it waits while there is no room. -/
def deliver (d : Downlink) (e : Client.Event) (last : Bool) : Downlink :=
  if !d.receiving then { d with reader := .ended }
  else if d.waiting.length < capacity then
    { d with
      waiting := d.waiting ++ [e]
      reader := if last then .ended else .reading }
  else d

/-- The reader's next step; it does nothing while it has to wait. -/
def step (d : Downlink) : Downlink :=
  match d.reader with
  | .reading =>
    match d.incoming with
    | [] => d
    | item :: rest => { d with incoming := rest }.look item
  | .delivering e last => d.deliver e last
  | .ended => d

/-- Let the reader run while every event is received at once, with at most so many steps. -/
def drainIn : Nat → Downlink → List Client.Event → Downlink × List Client.Event
  | 0, d, received => (d, received)
  | fuel + 1, d, received =>
    let (d, event) := d.step.receive
    drainIn fuel d (received ++ event.toList)

/-- Let the reader run while every event is received at once; each item takes two steps at most, and
each event that waits one. -/
def drain (d : Downlink) : Downlink × List Client.Event :=
  drainIn (2 * d.incoming.length + d.waiting.length + 1) d []

end Downlink

end BotFleet
