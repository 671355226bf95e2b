import BotFleet.Client.Responses
import BotFleet.Clock.Ticker

/-!
# How a client behaves over time

* `Opening`: the outcome of connecting;
* `Script`: when and how a client connects, what it reports and when, and how it responds;
* `Script.feed`: the instants of its reports.
-/

namespace BotFleet

/-- The outcome of connecting. -/
inductive Opening where
  | opened
  | failed (f : Client.Fault)
  | crashed (message : String)
deriving DecidableEq, Inhabited

/-- How a client behaves over time. Connecting takes some time and has an outcome, or never ends;
each event comes some time after the one before, the first after the connection is open; the stream
of events may close after the last one. -/
structure Script where
  opening : Option (Nat × Opening) := some (0, .opened)
  responses : Client.Responses := {}
  events : List (Nat × Client.Event) := []
  closes : Bool := false
deriving DecidableEq, Inhabited

/-- What a client reports: an event, or that there will be no more. -/
inductive Report where
  | event (e : Client.Event)
  | closed
deriving DecidableEq, Inhabited

namespace Script

/-- The instants of some events, each counted from the one before, and of the end of the stream. -/
def schedule (closes : Bool) : Nat → List (Nat × Client.Event) → List (Nat × Report)
  | now, [] => if closes then [(now, .closed)] else []
  | now, (after, e) :: rest =>
    let due := Clock.wake now after
    (due, .event e) :: schedule closes due rest

/-- The instants of a client's reports, after its connection opened. -/
def feed (s : Script) (opened : Nat) : List (Nat × Report) := schedule s.closes opened s.events

end Script

end BotFleet
