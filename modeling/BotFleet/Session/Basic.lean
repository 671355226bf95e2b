import BotFleet.Routine.Basic
import BotFleet.Session.Lifecycle
import BotFleet.Session.Script
import BotFleet.Session.Settings
import BotFleet.Session.Settlement
import BotFleet.Text.Quoted

/-!
# A session

A session connects a client, follows its events through the lifecycle, settles its login once,
publishes its stage, and runs the routine of a spawned bot. Its clock counts from its start.

* `Phase`, `Session`, `Session.start`;
* `Session.Task`, `Session.ready`, `Session.step`: what there is to do, whether it can be done, and
  the doing of it; tasks that are ready at the same instant may be done in any order;
* `Session.requestStop`, `Session.change`: what may happen to a session at any time;
* `Session.settle`: everything that can be done at an instant, in one of the orders;
* `Session.wait?`, `Session.pass`: time.
-/

namespace BotFleet

/-- How far the work of a session has come. -/
inductive Phase where
  | fresh
  | connecting (due : Option Nat)
  | running
  | finished
  | crashed (message : String)
deriving DecidableEq, Inhabited

/-- The work of a session is over. -/
def Phase.isOver : Phase → Bool
  | .finished | .crashed _ => true
  | _ => false

/-- A session with all that belongs to it. -/
structure Session where
  settings : SessionSettings
  pace : Option Pace
  script : Script
  /-- Milliseconds since the start. -/
  clock : Nat := 0
  phase : Phase := .fresh
  lifecycle : Lifecycle := .start
  settlement : Settlement := .start
  /-- The stage that others see. -/
  published : Stage := .connecting
  /-- The session was asked to stop. -/
  stopping : Bool := false
  /-- The session has ended its routine. -/
  routineEnded : Bool := false
  routine : Option Routine := none
  responses : Client.Responses := {}
  /-- What the client is going to report, and when. -/
  feed : List (Nat × Report) := []
  /-- What the client has reported and the session has not looked at. -/
  inbox : List Report := []
deriving DecidableEq

namespace Session

/-- A session that has not done anything. -/
def start (settings : SessionSettings) (pace : Option Pace) (script : Script) : Session :=
  { settings, pace, script, responses := script.responses }

def identity (s : Session) : String := s.settings.identity

/-- Others see that the session is terminated. -/
def isTerminated (s : Session) : Bool := s.published = .terminated

/-- Nothing more is going to be published. -/
def isOver (s : Session) : Bool := s.isTerminated || s.phase.isOver

/-- A routine is cancelled when its session ends it, and when the session is asked to stop. -/
def situation (s : Session) : Routine.Situation where
  identity := s.identity
  responses := s.responses
  now := s.clock
  cancelled := s.stopping || s.routineEnded

/-! ## What may happen at any time -/

/-- Ask the session to stop. -/
def requestStop (s : Session) : Session := { s with stopping := true }

/-- The client was connected at some time. -/
def wasConnected (s : Session) : Bool := s.phase = .running || s.routineEnded

/-- The client responds differently from now on, if it is connected. -/
def change (s : Session) (responses : Client.Responses) : Session :=
  if s.wasConnected then { s with responses } else s

/-! ## Steps -/

def logLine (s : Session) (level : Level) (message : String) : Effect :=
  .log level .session s!"{s.identity}{message}"

/-- The detail of a failure that a request to stop brings about. -/
def stopDetail : String := "shutdown requested"

/-- What the end of the event stream counts as. -/
def streamClosed : Client.Event := .ended "event stream closed"

/-- End a session whose login has not been settled, before its client was connected. -/
def fail (s : Session) (cause : LoginFailure) : Session :=
  { s with
    phase := .finished
    published := .terminated
    settlement := (s.settlement.settle (.failure cause)).1 }

/-- The first thing that a session does: it counts itself, and connects unless it has been asked
to stop. -/
def begin (s : Session) : Session × List Effect :=
  if s.stopping then
    (s.fail ⟨.disconnected, stopDetail⟩,
      [.count .started, .enter, s.logLine .warn " stopped before connecting", .count .failures,
        .leave])
  else
    let due := s.script.opening.map fun (delay, _) => Clock.wake s.clock delay
    ({ s with phase := .connecting due }, [.count .started, .enter, .connect])

/-- What connecting comes to. A request to stop is looked at first. -/
def connect (s : Session) : Session × List Effect :=
  if s.stopping then
    (s.fail ⟨.disconnected, stopDetail⟩,
      [s.logLine .warn " stopped before connecting", .count .failures, .leave])
  else
    match s.script.opening with
    | none => (s, [])
    | some (_, .opened) =>
      ({ s with phase := .running, feed := s.script.feed s.clock },
        [s.logLine .debug ": Connected, awaiting login"])
    | some (_, .failed f) =>
      let target := s.settings.target
      let message := s!" could not connect to {target.host}:{target.port}: {f.message}"
      (s.fail ⟨.connection, f.message⟩,
        [s.logLine .warn message, .count .failures, .leave])
    | some (_, .crashed message) =>
      ({ s with phase := .crashed message, settlement := s.settlement.abandon }, [.leave])

/-- Start the routine, if bots of this run have one. -/
def startRoutine (s : Session) : Session × List Effect :=
  match s.pace with
  | none => (s, [])
  | some pace =>
    ({ s with routine := some (.attach pace s.clock) },
      [.log .debug .routine s!"{s.identity}: Behavior attached"])

/-- How the end of a session is logged. -/
def endLine (s : Session) (e : Ending) : Effect :=
  match e.cause with
  | .kicked => s.logLine .warn s!" was kicked: {e.detail}"
  | .disconnected => s.logLine .warn s!" disconnected: {e.detail}"
  | .errored => s.logLine .error s!" encountered an error: {e.detail}"

/-- End the session: its routine is cancelled, its stage published, and its login fails if it was
still open. -/
def terminate (s : Session) (e : Ending) : Session × List Effect :=
  let (settlement, first) := s.settlement.settle (.failure e.toFailure)
  let counted : List Effect :=
    if first then [.count .failures]
    else [.count .endedAfterLogin,
      s.logLine .info s!": Session ended after login ({e.text})"]
  ({ s with
      phase := .finished
      published := .terminated
      routineEnded := true
      settlement },
    s.endLine e :: counted ++ [.leave])

/-- Do what the lifecycle asks for, and publish the stage. -/
def react (s : Session) : Reaction → Session × List Effect
  | .startRoutine =>
    let (s, es) := s.startRoutine
    ({ s with published := s.lifecycle.stage }, s.logLine .debug " spawned" :: es)
  | .settleLogin =>
    let (settlement, first) := s.settlement.settle .success
    ({ s with settlement, published := s.lifecycle.stage },
      s.logLine .info " logged in" :: if first then [.count .logins] else [])
  | .noteChat speaker text =>
    ({ s with published := s.lifecycle.stage }, [s.logLine .debug s!" heard <{speaker}> {text}"])
  | .terminate e => s.terminate e
  | .ignore =>
    ({ s with published := s.lifecycle.stage },
      [s.logLine .debug s!": Ignoring duplicate event in state {s.lifecycle.stage.name}"])

/-- Let the lifecycle react. -/
def follow (s : Session) (r : Lifecycle × Reaction) : Session × List Effect :=
  { s with lifecycle := r.1 }.react r.2

/-- Look at the next report of the client. A request to stop is looked at first, and a stream that
has closed stays closed. -/
def attend (s : Session) : Session × List Effect :=
  if s.stopping then s.follow (s.lifecycle.shutdown stopDetail)
  else
    match s.inbox with
    | [] => (s, [])
    | .event e :: rest => { s with inbox := rest }.follow (s.lifecycle.apply e)
    | .closed :: _ => s.follow (s.lifecycle.apply streamClosed)

/-- What there is to do in a session: its own work, the next report of its client, and its
routine. -/
inductive Task where
  | work
  | report
  | routine (task : Routine.Task)
deriving DecidableEq

/-- Whether something can be done at this instant. -/
def ready (s : Session) : Task → Bool
  | .work =>
    match s.phase with
    | .fresh => true
    | .connecting due => s.stopping || due.any (· ≤ s.clock)
    | .running => s.stopping || !s.inbox.isEmpty
    | _ => false
  | .report =>
    match s.phase, s.feed with
    | .running, (due, _) :: _ => due ≤ s.clock
    | _, _ => false
  | .routine task => s.routine.any fun r => r.ready s.situation task

/-- Do something; what is not ready is left as it is. -/
def step (s : Session) (draw : Draw) (task : Task) : Session × List Effect :=
  if s.ready task then
    match task with
    | .work =>
      match s.phase with
      | .fresh => s.begin
      | .connecting _ => s.connect
      | .running => s.attend
      | _ => (s, [])
    | .report =>
      match s.feed with
      | (_, report) :: rest => ({ s with feed := rest, inbox := s.inbox ++ [report] }, [])
      | [] => (s, [])
    | .routine task =>
      match s.routine with
      | some r =>
        let (r, es) := r.step s.situation draw task
        ({ s with routine := some r }, es)
      | none => (s, [])
  else (s, [])

/-! ## One schedule -/

/-- The first thing that can be done: the session's own work, then reports, then the routine. -/
def firstReady (s : Session) : Option Task :=
  if s.ready .work then some .work
  else if s.ready .report then some .report
  else (s.routine.bind fun r => r.firstReady s.situation).map .routine

/-- Steps that are enough for an instant: beginning and opening, two for each report, one for a
request to stop, and those of a routine. -/
def stepsEnough (s : Session) : Nat :=
  2 * (s.script.events.length + s.feed.length + s.inbox.length + 1) + 3 +
    (match s.routine with
      | some r => r.stepsEnough
      | none => 4)

/-- Do at most so many things that can be done at an instant, and gather their effects. -/
def settleIn (draw : Draw) : Nat → Session → List Effect → Session × List Effect
  | 0, s, es => (s, es)
  | fuel + 1, s, es =>
    match s.firstReady with
    | none => (s, es)
    | some task =>
      let (s, es') := s.step draw task
      settleIn draw fuel s (es ++ es')

/-- Do everything that can be done at an instant. -/
def settle (s : Session) (draw : Draw) : Session × List Effect :=
  settleIn draw s.stepsEnough s []

/-! ## Time -/

/-- How long it takes until something can be done, if nothing can be done now. -/
def wait? (s : Session) : Option Nat :=
  let own := match s.phase with
    | .connecting (some due) => [due - s.clock]
    | .running => (s.feed.head?.map fun (due, _) => due - s.clock).toList
    | _ => []
  (own ++ (s.routine.bind fun r => r.wait? s.clock).toList).min?

/-- Let time pass. -/
def pass (s : Session) (ms : Nat) : Session := { s with clock := s.clock + ms }

end Session

end BotFleet
