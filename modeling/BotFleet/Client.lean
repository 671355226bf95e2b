import BotFleet.Point

/-!
# Clients of the game world

What a session exchanges with the client that plays for it: lifecycle events in, control calls out.

* `Client.Event`: what a client reports;
* `Client.Fault`, `Client.Fault.message`: why connecting or a call fails;
* `Control`, `Client.Call`: what a client can be asked to do.
-/

namespace BotFleet

/-- A movement control that a client can hold engaged. -/
inductive Control where
  | forward
deriving DecidableEq, Inhabited

namespace Client

/-- A lifecycle event of a client. -/
inductive Event where
  | spawn
  | login
  | chat (speaker text : String)
  | kicked (reason : String)
  | ended (reason : String)
  | failed (message : String)
deriving DecidableEq, Inhabited

/-- Why connecting or a call fails. -/
inductive Fault where
  | connect (detail : String)
  | closed
  | backpressure
  | encoding (detail : String)
deriving DecidableEq, Inhabited

/-- The text of a fault. -/
def Fault.message : Fault → String
  | .connect detail => s!"Connect failed: {detail}"
  | .closed => "Client channel closed"
  | .backpressure => "Outbound queue full"
  | .encoding detail => s!"Encoding error: {detail}"

/-- A call on a client's controls. -/
inductive Call where
  | lookAt (point : Point) (immediate : Bool)
  | setControl (control : Control) (engaged : Bool)
  | chat (text : String)
deriving DecidableEq, Inhabited

end Client

end BotFleet
