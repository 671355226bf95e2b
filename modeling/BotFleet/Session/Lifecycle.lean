import BotFleet.Client
import BotFleet.Session.Verdict

/-!
# The lifecycle of a session

A session is connecting, spawned, logged in or terminated. A kick, an end, an error or a shutdown
terminates it, and a terminated session ignores everything. Spawn and login may come in either
order; the first of each counts.

* `Stage`: where a session stands;
* `Ending`: why it ended;
* `Reaction`: what a session has to do about an event;
* `Lifecycle.apply`, `Lifecycle.shutdown`: one event, one request to stop.
-/

namespace BotFleet

/-- Where a session stands. -/
inductive Stage where
  | connecting
  | spawned
  | loggedIn
  | terminated
deriving DecidableEq, Inhabited

/-- The name of a stage in log lines. -/
def Stage.name : Stage → String
  | connecting => "Connecting"
  | spawned => "Spawned"
  | loggedIn => "LoggedIn"
  | terminated => "Terminated"

/-- What brought a session to its end. -/
inductive EndCause where
  | kicked
  | disconnected
  | errored
deriving DecidableEq, Inhabited

/-- Why a session ended. -/
structure Ending where
  cause : EndCause
  detail : String
deriving DecidableEq, Inhabited

namespace Ending

/-- The failure of a login that was still open when the session ended. -/
def toFailure (e : Ending) : LoginFailure :=
  match e.cause with
  | .kicked => ⟨.kicked, e.detail⟩
  | .disconnected => ⟨.disconnected, e.detail⟩
  | .errored => ⟨.protocolError, e.detail⟩

/-- The text of an ending. -/
def text (e : Ending) : String :=
  match e.cause with
  | .kicked => s!"kicked: {e.detail}"
  | .disconnected => s!"disconnected: {e.detail}"
  | .errored => s!"error: {e.detail}"

end Ending

/-- What a session has to do about an event. -/
inductive Reaction where
  | startRoutine
  | settleLogin
  | noteChat (speaker text : String)
  | terminate (ending : Ending)
  | ignore
deriving DecidableEq, Inhabited

/-- The lifecycle of one session. -/
structure Lifecycle where
  stage : Stage := .connecting
  spawned : Bool := false
  ending : Option Ending := none
deriving DecidableEq, Inhabited

namespace Lifecycle

def start : Lifecycle := {}

/-- End the session; a session that has ended stays as it is. -/
def finish (l : Lifecycle) (ending : Ending) : Lifecycle × Reaction :=
  if l.stage = .terminated then (l, .ignore)
  else ({ l with stage := .terminated, ending := some ending }, .terminate ending)

/-- The first spawn starts the routine; it does not take back a login. -/
def spawn (l : Lifecycle) : Lifecycle × Reaction :=
  if l.stage = .terminated ∨ l.spawned then (l, .ignore)
  else
    let stage := if l.stage = .connecting then .spawned else l.stage
    ({ l with stage, spawned := true }, .startRoutine)

/-- The first login settles the login. -/
def login (l : Lifecycle) : Lifecycle × Reaction :=
  if l.stage = .terminated ∨ l.stage = .loggedIn then (l, .ignore)
  else ({ l with stage := .loggedIn }, .settleLogin)

/-- React to an event of the client. -/
def apply (l : Lifecycle) : Client.Event → Lifecycle × Reaction
  | .spawn => l.spawn
  | .login => l.login
  | .chat speaker text => (l, if l.stage = .terminated then .ignore else .noteChat speaker text)
  | .kicked reason => l.finish ⟨.kicked, reason⟩
  | .ended reason => l.finish ⟨.disconnected, reason⟩
  | .failed message => l.finish ⟨.errored, message⟩

/-- React to a request to stop. -/
def shutdown (l : Lifecycle) (detail : String) : Lifecycle × Reaction :=
  l.finish ⟨.disconnected, detail⟩

end Lifecycle

end BotFleet
