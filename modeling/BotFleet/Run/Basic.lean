import BotFleet.Fleet.Holding
import BotFleet.Fleet.Joining
import BotFleet.Fleet.Recruitment
import BotFleet.Report.Summary
import BotFleet.Run.Banner

/-!
# A run from its plan to its summary

The bots of a plan are recruited, the fleet is held and then stopped, and the run is summed up.

* `Exit`, `Transcript`: how a program ends, and what it prints;
* `Plan.order`: whom a plan recruits;
* `Plan.holdFleet`: a fleet is held, and then stopped;
* `Plan.run`: the transcript of a run.
-/

namespace BotFleet

/-- How a program ends: it exits with a status, or it is aborted, unless it is still running. -/
inductive Exit where
  | status (n : UInt32)
  | aborted
  | running
deriving DecidableEq, Inhabited

/-- What a program prints on its two outputs, and how it ends. -/
structure Transcript where
  output : List String := []
  errors : List String := []
  exit : Exit
deriving DecidableEq, Inhabited

namespace Plan

/-- How long stopped sessions get to close their connections. -/
def stopGrace : Nat := 5000

/-- Whom a plan recruits. -/
def order (p : Plan) (scripts : String → Script) : Order where
  target := p.target
  count := p.bots
  stagger := p.stagger
  pace := p.pace
  scripts

/-- How long a fleet is held, in milliseconds. -/
def holdTime (p : Plan) : Option Nat := p.holdSecs.map (1000 * ·)

/-- Hold a fleet, for `limit` at most, and then stop it; nothing comes of it while it is held. -/
def holdFleet (p : Plan) (f : Fleet) (draw : Draw) (limit : Nat) : Option Fleet :=
  match f.hold draw p.holdTime none limit with
  | (f, some _) => some (f.stop draw stopGrace).1
  | (_, none) => none

/-- The lines that sum up a run. -/
def summaryLines (p : Plan) (s : Summary) : List String :=
  if p.json then [s.toJson.pretty] else s.lines

/-- The line that says why no bots were created. -/
def crashLine (message : String) : String := s!"Error creating bots: {crashReport message}"

/-- The transcript of a run with some memory, whose recruiting and holding take `limit` at most each.
A recruiter that crashes leaves a run without bots. -/
def run (p : Plan) (id : RunId) (scripts : String → Script) (draw : Draw) (memory limit : Nat) :
    Transcript :=
  let banner := p.banner id
  let summed (records : List LoginRecord) (tally : Tally) : List String :=
    p.summaryLines (.ofRecords id p.bots records tally)
  match (p.order scripts).recruit draw memory limit with
  | .error .overflow =>
    { output := banner ++ summed [] .zero
      errors := [crashLine ReserveError.overflow.message]
      exit := .status 0 }
  | .error (.exhausted bytes) =>
    { output := banner
      errors := [(ReserveError.exhausted bytes).message]
      exit := .aborted }
  | .ok (r, done) =>
    let printed := banner ++ r.reporter.records.map LoginRecord.line
    if done then
      let printed := printed ++ ["All bots created"]
      match p.holdFleet r.fleet draw limit with
      | some f => { output := printed ++ summed r.reporter.records f.tally, exit := .status 0 }
      | none => { output := printed, exit := .running }
    else { output := printed, exit := .running }

end Plan

end BotFleet
