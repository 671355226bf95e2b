import BotFleet.Clock.Simulation
import BotFleet.Routine.Basic

/-!
# A routine on its own

* `RoutineRun`: a routine with a client and a clock, outside of any session;
* `RoutineRun.timed`: the routine in time.
-/

namespace BotFleet

/-- A routine with a client and a clock. -/
structure RoutineRun where
  identity : String
  responses : Client.Responses
  now : Nat := 0
  cancelled : Bool := false
  routine : Routine
  tally : Tally := {}
  journal : Journal := #[]
deriving DecidableEq

namespace RoutineRun

/-- Attach a routine at the first instant. -/
def start (identity : String) (responses : Client.Responses) (cancelled : Bool) (pace : Pace) :
    RoutineRun :=
  { identity, responses, cancelled
    routine := .attach pace 0
    journal := #[(0, .log .debug .routine s!"{identity}: Behavior attached")] }

def situation (r : RoutineRun) : Routine.Situation :=
  ⟨r.identity, r.responses, r.now, r.cancelled⟩

/-- Take over a routine that has done something. -/
def advance (r : RoutineRun) (result : Routine × List Effect) : RoutineRun :=
  { r with
    routine := result.1
    tally := r.tally.applyAll result.2
    journal := r.journal.note r.now result.2 }

/-- A step of the routine. -/
def step (r : RoutineRun) (draw : Draw) (task : Routine.Task) : RoutineRun :=
  r.advance (r.routine.step r.situation draw task)

/-- Cancel the routine. -/
def cancel (r : RoutineRun) : RoutineRun := { r with cancelled := true }

/-- The routine in time. -/
def timed (draw : Draw) : Timed RoutineRun where
  settle r := r.advance (r.routine.settle r.situation draw)
  wait? r := r.routine.wait? r.now
  pass ms r := { r with now := r.now + ms }

end RoutineRun

end BotFleet
