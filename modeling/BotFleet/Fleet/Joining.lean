import BotFleet.Fleet.Basic

/-!
# Waiting for sessions to finish

The work of the sessions is waited for one after the other, in their order; a crash is reported when
its turn comes. A wait without any time passes over what has finished before, as far as it sees at
once.

* `Joining`, `Joining.proceed`: how far the waiting has come;
* `Fleet.joinAll`: wait for all, for some time at most;
* `Fleet.stop`: ask all sessions to stop, and wait for them.
-/

namespace BotFleet

/-- What a crashed task is reported as; the numbers of tasks carry no meaning. -/
def crashReport (message : String) : String :=
  s!"task <id> panicked with message {Text.quoted message}"

/-- A fleet of which the first `joined` sessions have been waited for. -/
structure Joining where
  fleet : Fleet
  joined : Nat := 0
deriving DecidableEq

namespace Joining

/-- Report a crash of one session. -/
def reportCrash (f : Fleet) (i : Nat) (seat : Seat) : Fleet :=
  match seat.session.phase with
  | .crashed message =>
    let line := seat.session.logLine .error s!": Session task failed: {crashReport message}"
    { f with seats := f.seats.set i (seat.advance (seat.session, [line])) }
  | _ => f

/-- Pass over the sessions that have finished, `count` at most. -/
def proceedBy (j : Joining) : Nat → Joining
  | 0 => j
  | count + 1 =>
    match j.fleet.seats[j.joined]? with
    | some seat =>
      if seat.session.phase.isOver then
        proceedBy ⟨reportCrash j.fleet j.joined seat, j.joined + 1⟩ count
      else j
    | none => j

/-- Pass over the sessions that have finished. -/
def proceed (j : Joining) : Joining := j.proceedBy j.fleet.seats.length

/-- All sessions have been waited for. -/
def isDone (j : Joining) : Bool := j.fleet.seats.length ≤ j.joined

/-- The waiting in time. -/
def timed (draw : Draw) : Timed Joining where
  settle j := { j with fleet := j.fleet.settle draw }.proceed
  wait? j := j.fleet.wait?
  pass ms j := { j with fleet := j.fleet.pass ms }

end Joining

namespace Fleet

/-- Wait for the work of all sessions to finish, for some time at most. -/
def joinAll (f : Fleet) (draw : Draw) (limit : Nat) : Fleet × Bool :=
  let j : Joining := Joining.proceedBy { fleet := f } glance
  let (j, done) := (Joining.timed draw).await Joining.isDone limit j
  (j.fleet, done)

/-- Ask all sessions to stop and wait for them, for some time at most. -/
def stop (f : Fleet) (draw : Draw) (grace : Nat) : Fleet × Bool :=
  let (f, done) := f.requestStopAll.joinAll draw grace
  if done then (f, true)
  else (f.log .warn s!"Sessions did not stop within {grace}ms", false)

end Fleet

end BotFleet
