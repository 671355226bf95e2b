import BotFleet.Fleet.Basic

/-!
# Watching for the end of every session

The ends of the sessions are waited for one after the other, in their order. A wait passes over what
has ended before, as far as it sees at once.

* `Watching`, `Watching.proceed`: how far the wait has come;
* `Watching.timed`: the wait in time;
* `Fleet.awaitOver`: wait for the end of every session, for some time at most.
-/

namespace BotFleet

/-- A fleet of which the first `passed` sessions have been seen to be over. -/
structure Watching where
  fleet : Fleet
  passed : Nat := 0
deriving DecidableEq

namespace Watching

/-- Pass over the sessions that are over, `count` at most. -/
def proceedBy (w : Watching) : Nat → Watching
  | 0 => w
  | count + 1 =>
    match w.fleet.seats[w.passed]? with
    | some seat =>
      if seat.session.isOver then proceedBy { w with passed := w.passed + 1 } count else w
    | none => w

/-- Pass over the sessions that are over. -/
def proceed (w : Watching) : Watching := w.proceedBy w.fleet.seats.length

/-- All sessions have been seen to be over. -/
def isDone (w : Watching) : Bool := w.fleet.seats.length ≤ w.passed

/-- Begin to watch a fleet. -/
def start (f : Fleet) : Watching := Watching.proceedBy { fleet := f } Fleet.glance

/-- The wait in time, which wakes up at some instants besides those of the sessions. -/
def timed (draw : Draw) (alarms : List Nat := []) : Timed Watching where
  settle w := { w with fleet := w.fleet.settle draw }.proceed
  wait? w := (Fleet.timed draw alarms).wait? w.fleet
  pass ms w := { w with fleet := w.fleet.pass ms }

end Watching

namespace Fleet

/-- Wait until every session is over, for some time at most. -/
def awaitOver (f : Fleet) (draw : Draw) (limit : Nat) : Fleet × Bool :=
  let (w, done) := (Watching.timed draw).await Watching.isDone limit (Watching.start f)
  (w.fleet, done)

end Fleet

end BotFleet
