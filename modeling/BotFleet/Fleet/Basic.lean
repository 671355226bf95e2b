import BotFleet.Clock.Simulation
import BotFleet.Session.Basic
import BotFleet.Session.Handle

/-!
# A fleet of sessions

Sessions run side by side and share one tally; apart from that none of them sees another.

* `Seat`, `Fleet`: a session with what its owner keeps of it, and the sessions of a run;
* `Fleet.launch`: start a session;
* `Fleet.step`: a step of one session;
* `Fleet.pollLogin`, `Fleet.requestStop`: what the owner of a session does with it;
* `Fleet.live`, `Fleet.glance`: what is seen of the sessions, and how much a wait sees at once;
* `Fleet.settle`, `Fleet.timed`: all sessions run in time.
-/

namespace BotFleet

/-- A session with what its owner keeps of it. -/
structure Seat where
  /-- The instant of the session's start. -/
  start : Nat
  session : Session
  handle : LoginHandle := {}
  /-- The effects of the session, with the instants of its own clock. -/
  journal : Journal := #[]
deriving DecidableEq

namespace Seat

/-- Take over a session that has done something. -/
def advance (seat : Seat) (result : Session × List Effect) : Seat :=
  { seat with
    session := result.1
    journal := seat.journal.note result.1.clock result.2 }

end Seat

/-- The sessions of a run in the order of their start, and what they share. -/
structure Fleet where
  now : Nat := 0
  seats : List Seat := []
  tally : Tally := {}
  /-- The log lines of the fleet itself. -/
  journal : Journal := #[]
deriving DecidableEq

namespace Fleet

/-- Start a session. -/
def launch (f : Fleet) (session : Session) : Fleet :=
  { f with seats := f.seats ++ [{ start := f.now, session }] }

/-- Write a log line. -/
def log (f : Fleet) (level : Level) (message : String) : Fleet :=
  { f with journal := f.journal.push (f.now, .log level .fleet message) }

/-- A step of one session. -/
def step (f : Fleet) (draw : Draw) (i : Nat) (task : Session.Task) : Fleet :=
  match f.seats[i]? with
  | some seat =>
    let result := seat.session.step draw task
    { f with
      seats := f.seats.set i (seat.advance result)
      tally := f.tally.applyAll result.2 }
  | none => f

/-- Do something to one session. -/
def modifySession (f : Fleet) (i : Nat) (g : Session → Session) : Fleet :=
  { f with seats := f.seats.modify i fun seat => { seat with session := g seat.session } }

/-- Ask one session to stop. -/
def requestStop (f : Fleet) (i : Nat) : Fleet := f.modifySession i Session.requestStop

/-- Ask every session to stop. -/
def requestStopAll (f : Fleet) : Fleet :=
  { f with seats := f.seats.map fun seat => { seat with session := seat.session.requestStop } }

/-- Ask for the login of one session without waiting. -/
def pollLogin (f : Fleet) (i : Nat) : Fleet × Option Verdict :=
  match f.seats[i]? with
  | some seat =>
    let (handle, settlement, verdict) := seat.handle.poll seat.session.settlement
    let session := { seat.session with settlement }
    ({ f with seats := f.seats.set i { seat with handle, session } }, verdict)
  | none => (f, none)

/-- The number of sessions that are not seen as terminated. -/
def live (f : Fleet) : Nat := f.seats.countP fun seat => !seat.session.isTerminated

/-- How many finished sessions a wait passes over at once. After that it takes a pause, in which
no time passes, and a wait without any time ends at its first pause. -/
def glance : Nat := 128

/-! ## Time -/

/-- Do everything that some sessions can do at an instant, in their order. -/
def settleSeats (draw : Draw) : List Seat → Tally → List Seat × Tally
  | [], tally => ([], tally)
  | seat :: rest, tally =>
    let result := seat.session.settle draw
    let (rest, tally) := settleSeats draw rest (tally.applyAll result.2)
    (seat.advance result :: rest, tally)

/-- Do everything that can be done at this instant. -/
def settle (f : Fleet) (draw : Draw) : Fleet :=
  let (seats, tally) := settleSeats draw f.seats f.tally
  { f with seats, tally }

/-- How long it takes until something can be done, if nothing can be done now. -/
def wait? (f : Fleet) : Option Nat := (f.seats.filterMap fun seat => seat.session.wait?).min?

/-- Let time pass. -/
def pass (f : Fleet) (ms : Nat) : Fleet :=
  { f with
    now := f.now + ms
    seats := f.seats.map fun seat => { seat with session := seat.session.pass ms } }

/-- How long it takes until the first of some instants that lie ahead. -/
def waitFor (now : Nat) (instants : List Nat) : Option Nat :=
  ((instants.filter (now < ·)).map (· - now)).min?

/-- The earlier of two waits. -/
def sooner (a b : Option Nat) : Option Nat := (a.toList ++ b.toList).min?

/-- A fleet that runs in time, and wakes up at some instants besides those of its sessions. -/
def timed (draw : Draw) (alarms : List Nat := []) : Timed Fleet where
  settle f := f.settle draw
  wait? f := sooner f.wait? (waitFor f.now alarms)
  pass ms f := f.pass ms

end Fleet

end BotFleet
