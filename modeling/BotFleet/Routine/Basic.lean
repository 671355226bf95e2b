import BotFleet.Client.Responses
import BotFleet.Clock.Ticker
import BotFleet.Effect
import BotFleet.Routine.Chance
import BotFleet.Routine.Pace

/-!
# The routine of a spawned bot

A routine has two periodic activities. A movement tick turns the avatar a little, holds `forward`,
and after a while lets go of it; a chat tick says one of the lines. What fails is skipped, a crash
ends the activity in which it happens, and nothing is done any more once the routine is cancelled.

* `Activity`, `Routine`, `Routine.attach`;
* `Routine.Task`, `Routine.ready`, `Routine.step`: what there is to do, whether it can be done, and
  the doing of it;
* `Routine.settle`: everything that can be done at an instant;
* `Routine.wait?`: how long nothing can be done.
-/

namespace BotFleet

/-- An activity that is repeated until it is stopped or crashes. -/
inductive Activity where
  | running (ticker : Ticker)
  | stopped
  | crashed
deriving DecidableEq

namespace Activity

/-- An activity that cannot start its ticker crashes at once. -/
def start (now period : Nat) : Activity :=
  match Ticker.start? now period with
  | some t => running t
  | none => crashed

/-- When the activity is due. -/
def due? : Activity → Option Nat
  | running t => some t.due
  | _ => none

end Activity

/-- The two activities of a bot, and the instants at which it lets go of `forward`. -/
structure Routine where
  moveDuration : Nat
  moving : Activity
  chatting : Activity
  releases : List Nat := []
deriving DecidableEq

/-- What a tick leaves to chance. -/
structure Draw where
  shift : Double × Double
  line : Fin 5
deriving DecidableEq

namespace Draw

/-- The draw of three words. -/
def ofWords (w v u : UInt64) : Draw := ⟨(axisShift w, axisShift v), (lineOf? u).getD firstLine⟩

/-- A draw of no particular kind. -/
def steady : Draw := ofWords 0x6000000000000000 0xa000000000000000 0x4000000000000000

end Draw

namespace Routine

/-- What a routine finds when it does something: whose it is, how the client responds, what time
it is, and whether the routine is cancelled. -/
structure Situation where
  identity : String
  responses : Client.Responses
  now : Nat
  cancelled : Bool

/-- Start both activities. -/
def attach (pace : Pace) (now : Nat) : Routine where
  moveDuration := pace.moveDuration
  moving := .start now pace.moveInterval
  chatting := .start now pace.chatInterval

/-- What there is to do: a tick of an activity, or letting go of `forward`. -/
inductive Task where
  | move
  | chat
  | release (index : Nat)
deriving DecidableEq

def logLine (level : Level) (c : Situation) (message : String) : Effect :=
  .log level .routine s!"{c.identity}: {message}"

/-- A running activity can be stopped once it is cancelled, and has a tick when it is due. -/
def activityReady (c : Situation) : Activity → Bool
  | .running t => c.cancelled || t.due ≤ c.now
  | _ => false

/-- Whether something can be done at this instant. -/
def ready (r : Routine) (c : Situation) : Task → Bool
  | .move => activityReady c r.moving
  | .chat => activityReady c r.chatting
  | .release i =>
    match r.releases[i]? with
    | some due => c.cancelled || due ≤ c.now
    | none => false

/-- A movement tick. Without a known position there is nothing to turn to; `forward` is held only
after a turn, and let go of only after it was held. -/
def moveTick (r : Routine) (c : Situation) (draw : Draw) : Routine × List Effect :=
  match c.responses.sight with
  | .crash => ({ r with moving := .crashed }, [])
  | .unknown => (r, [logLine .debug c "Position unknown, skipping movement tick"])
  | .at p =>
    let look : Effect := .call (.lookAt (p.shifted draw.shift.1 draw.shift.2) true)
    let engage : Effect := .call (.setControl .forward true)
    let failure (f : Client.Fault) := logLine .warn c s!"Movement tick failed: {f.message}"
    match c.responses.look with
    | .crash => ({ r with moving := .crashed }, [look])
    | .refused f => (r, [look, failure f])
    | .done =>
      match c.responses.engage with
      | .crash => ({ r with moving := .crashed }, [look, engage])
      | .refused f => (r, [look, engage, failure f])
      | .done =>
        ({ r with releases := r.releases ++ [Clock.wake c.now r.moveDuration] },
          [look, engage, .count .moves])

/-- A chat tick. -/
def chatTick (r : Routine) (c : Situation) (draw : Draw) : Routine × List Effect :=
  let chat : Effect := .call (.chat chatLines[draw.line])
  match c.responses.chat with
  | .crash => ({ r with chatting := .crashed }, [chat])
  | .refused f => (r, [chat, logLine .warn c s!"Chat failed: {f.message}"])
  | .done => (r, [chat, .count .chats])

/-- Let go of `forward`. -/
def releaseEffects (c : Situation) : List Effect :=
  let release : Effect := .call (.setControl .forward false)
  match c.responses.release with
  | .refused f => [release, logLine .debug c s!"Forward release failed: {f.message}"]
  | _ => [release]

/-- Do something; what is not ready is left as it is, and what is cancelled ends without a call.
Only an activity notes its end. -/
def step (r : Routine) (c : Situation) (draw : Draw) : Task → Routine × List Effect
  | .move =>
    match r.moving with
    | .running t =>
      if c.cancelled then
        ({ r with moving := .stopped }, [logLine .debug c "Movement task stopped"])
      else if t.due ≤ c.now then { r with moving := .running (t.advance c.now) }.moveTick c draw
      else (r, [])
    | _ => (r, [])
  | .chat =>
    match r.chatting with
    | .running t =>
      if c.cancelled then
        ({ r with chatting := .stopped }, [logLine .debug c "Chat task stopped"])
      else if t.due ≤ c.now then { r with chatting := .running (t.advance c.now) }.chatTick c draw
      else (r, [])
    | _ => (r, [])
  | .release i =>
    match r.releases[i]? with
    | some due =>
      let left := { r with releases := r.releases.eraseIdx i }
      if c.cancelled then (left, [])
      else if due ≤ c.now then (left, releaseEffects c)
      else (r, [])
    | none => (r, [])

/-! ## One schedule -/

/-- The first thing that can be done: movement, chat, and then the oldest release. -/
def firstReady (r : Routine) (c : Situation) : Option Task :=
  if r.ready c .move then some .move
  else if r.ready c .chat then some .chat
  else (r.releases.findIdx? fun due => c.cancelled || due ≤ c.now).map .release

/-- Steps that are enough for an instant: one for each activity, each release, and one more for the
release that a movement tick may bring. -/
def stepsEnough (r : Routine) : Nat := r.releases.length + 4

/-- Do at most so many things that can be done at an instant, and gather their effects. -/
def settleIn (c : Situation) (draw : Draw) : Nat → Routine → List Effect → Routine × List Effect
  | 0, r, es => (r, es)
  | fuel + 1, r, es =>
    match r.firstReady c with
    | none => (r, es)
    | some task =>
      let (r, es') := r.step c draw task
      settleIn c draw fuel r (es ++ es')

/-- Do everything that can be done at an instant. -/
def settle (r : Routine) (c : Situation) (draw : Draw) : Routine × List Effect :=
  settleIn c draw r.stepsEnough r []

/-- How long it takes until something can be done, if nothing can be done now. -/
def wait? (r : Routine) (now : Nat) : Option Nat :=
  ((r.moving.due?.toList ++ r.chatting.due?.toList ++ r.releases).map (· - now)).min?

end Routine

end BotFleet
