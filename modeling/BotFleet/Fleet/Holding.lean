import BotFleet.Fleet.Watching

/-!
# Holding a fleet

A fleet is held until a stop, until some time has passed, or until every session is over, whichever
comes first; at the same instant a stop comes before the time, and the time before the sessions.

* `HoldExit`: what ended the holding;
* `Holding`, `Holding.exit?`: the instants that end it, and what ends it at a given instant;
* `Fleet.holdUntil`, `Fleet.hold`: hold a fleet, for some time at most.
-/

namespace BotFleet

/-- What ended the holding of a fleet. -/
inductive HoldExit where
  | stop
  | elapsed
  | allOver
deriving DecidableEq, Inhabited

/-- The instants that end the holding of a fleet, if there are any. -/
structure Holding where
  stopAt : Option Nat
  elapsedAt : Option Nat
deriving DecidableEq, Inhabited

namespace Holding

/-- What ends the holding at this instant. -/
def exit? (h : Holding) (w : Watching) : Option HoldExit :=
  if h.stopAt.any (· ≤ w.fleet.now) then some .stop
  else if h.elapsedAt.any (· ≤ w.fleet.now) then some .elapsed
  else if w.isDone then some .allOver
  else none

def instants (h : Holding) : List Nat := h.stopAt.toList ++ h.elapsedAt.toList

end Holding

/-- The log line at the end of the holding. -/
def Fleet.logExit (f : Fleet) : HoldExit → Fleet
  | .stop => f.log .info s!"Stop requested, {f.live} live sessions"
  | .elapsed => f.log .info s!"Hold time elapsed, {f.live} live sessions"
  | .allOver => f.log .info "Every session has ended"

/-- The fleet when it is no longer held, and what ended the holding, if anything did. -/
def Holding.release (h : Holding) (w : Watching) : Fleet × Option HoldExit :=
  match h.exit? w with
  | some exit => (w.fleet.logExit exit, some exit)
  | none => (w.fleet, none)

namespace Fleet

/-- Hold a fleet for `duration`, or until the instant `stopAt`, for `limit` at most. -/
def holdUntil (f : Fleet) (draw : Draw) (duration stopAt : Option Nat) (limit : Nat) :
    Fleet × Option HoldExit :=
  let holding : Holding := ⟨stopAt, duration.map (Clock.wake f.now)⟩
  holding.release ((Watching.timed draw holding.instants).await
    (fun w => (holding.exit? w).isSome) limit (Watching.start f)).1

/-- Hold a fleet for `duration`, or until a stop that comes after `stop`, for `limit` at most. -/
def hold (f : Fleet) (draw : Draw) (duration stop : Option Nat) (limit : Nat) :
    Fleet × Option HoldExit :=
  f.holdUntil draw duration (stop.map (Clock.wake f.now)) limit

end Fleet

end BotFleet
