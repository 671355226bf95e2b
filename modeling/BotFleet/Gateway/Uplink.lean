import BotFleet.Client

/-!
# From a session to its gateway

Frames wait in a queue of limited length until a writer takes them and writes them, one at a time.
When a frame cannot be written the writer closes the connection and ends, and so it does when the
client has been dropped and the queue is empty.

* `Uplink.Writer`, `Uplink`: what the writer is doing, and what it shares with its client;
* `Uplink.offer`: a client sends a frame;
* `Uplink.dropClient`: the last reference to the client goes away;
* `Uplink.step`: the writer's next step;
* `Uplink.drain`: the writer runs until it waits or has ended.
-/

namespace BotFleet

namespace Uplink

/-- What the writer is doing. -/
inductive Writer where
  | waiting
  | writing (frame : String)
  | closing
  | ended
deriving DecidableEq, Inhabited

/-- How many frames may wait for the writer. -/
def capacity : Nat := 64

end Uplink

/-- The writing side of a connection. -/
structure Uplink where
  /-- Accepted frames that the writer has not taken. -/
  queue : List String := []
  writer : Uplink.Writer := .waiting
  /-- What has been written, the oldest first. -/
  written : List String := []
  /-- The client is still referred to. -/
  held : Bool := true
deriving DecidableEq, Inhabited

namespace Uplink

/-- The writing side of a connection on which one frame has been written. -/
def greeted (greeting : String) : Uplink := { written := [greeting] }

/-- Send a frame: it is accepted if the writer has not ended and the queue has room. -/
def offer (u : Uplink) (frame : String) : Uplink × Except Client.Fault Unit :=
  if u.writer = .ended then (u, .error .closed)
  else if u.queue.length < capacity then ({ u with queue := u.queue ++ [frame] }, .ok ())
  else (u, .error .backpressure)

/-- The last reference to the client goes away. -/
def dropClient (u : Uplink) : Uplink := { u with held := false }

/-- The writer has something to do. -/
def ready (u : Uplink) : Bool :=
  match u.writer with
  | .waiting => !u.queue.isEmpty || !u.held
  | .writing _ | .closing => true
  | .ended => false

/-- The writer's next step; `works` says whether a frame can be written now. Frames that still wait
when the writer ends are lost. -/
def step (u : Uplink) (works : Bool) : Uplink :=
  match u.writer with
  | .waiting =>
    match u.queue with
    | frame :: rest => { u with queue := rest, writer := .writing frame }
    | [] => if u.held then u else { u with writer := .closing }
  | .writing frame =>
    if works then { u with writer := .waiting, written := u.written ++ [frame] }
    else { u with writer := .closing }
  | .closing => { u with writer := .ended, queue := [] }
  | .ended => u

/-- Let the writer run, with at most so many steps. -/
def drainIn (works : Bool) : Nat → Uplink → Uplink
  | 0, u => u
  | fuel + 1, u => if u.ready then drainIn works fuel (u.step works) else u

/-- Let the writer run until it waits or has ended; each frame takes two steps. -/
def drain (u : Uplink) (works : Bool) : Uplink := u.drainIn works (2 * u.queue.length + 3)

end Uplink

end BotFleet
