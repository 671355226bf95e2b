import BotFleet.Gateway.Downlink
import BotFleet.Gateway.Endpoint
import BotFleet.Gateway.Uplink
import BotFleet.Session.Script

/-!
# Connecting to a gateway

* `Reach`: how far an attempt to connect gets;
* `ConnectFlaw`, `ConnectFlaw.message`: why no connection comes about;
* `Connection`, `Connection.send`: both sides of a connection, and a call on its client;
* `Endpoint.connect`: connect and greet;
* `Endpoint.script`: how a client of a gateway behaves, for what arrives.
-/

namespace BotFleet

/-- How far an attempt to connect gets: there is no way to the host, nothing listens there, whoever
listens hangs up or answers with another status, or the connection is accepted. -/
inductive Reach where
  | unreachable
  | refused
  | hungUp
  | rejected (status : String)
  | accepted
deriving DecidableEq, Inhabited

/-- Why no connection comes about. -/
inductive ConnectFlaw where
  | address (f : UrlFlaw)
  | unreachable
  | refused
  | hungUp
  | rejected (status : String)
deriving DecidableEq, Inhabited

/-- The text of a flaw. -/
def ConnectFlaw.message : ConnectFlaw → String
  | address f => s!"HTTP format error: {f.message}"
  | unreachable => "IO error: Network is unreachable (os error 101)"
  | refused => "IO error: Connection refused (os error 111)"
  | hungUp => "WebSocket protocol error: Handshake not finished"
  | rejected status => s!"HTTP error: {status}"

/-- The flaw of an attempt, if it has one. -/
def Reach.flaw? : Reach → Option ConnectFlaw
  | unreachable => some .unreachable
  | refused => some .refused
  | hungUp => some .hungUp
  | rejected status => some (.rejected status)
  | accepted => none

/-- Both sides of a connection. -/
structure Connection where
  uplink : Uplink
  downlink : Downlink := {}
deriving DecidableEq, Inhabited

namespace Connection

/-- A call on the client of a connection is sent as a message. -/
def send (c : Connection) (call : Client.Call) : Connection × Except Client.Fault Unit :=
  let (uplink, result) := c.uplink.offer (ClientMessage.ofCall call).encode
  ({ c with uplink }, result)

/-- The client goes away: its reader is brought to an end, and its writer writes what waits. -/
def dropClient (c : Connection) : Connection :=
  ⟨c.uplink.dropClient, c.downlink.abort⟩

end Connection

namespace Endpoint

/-- What stands in the way of a connection; the address is checked first. -/
def flaw? (url : String) (reach : Reach) : Option ConnectFlaw :=
  match Url.check url with
  | .error f => some (.address f)
  | .ok () => reach.flaw?

/-- What is said first on a connection. -/
def greeting (s : SessionSettings) : ClientMessage := .hello s.identity s.target.version

/-- Connect, and say who is there. -/
def connect (e : Endpoint) (s : SessionSettings) (reach : Reach) :
    Except Client.Fault Connection :=
  let url := e.urlFor s
  match flaw? url reach with
  | some flaw => .error (.connect s!"{url}: {flaw.message}")
  | none => .ok { uplink := .greeted (greeting s).encode }

/-- What is asked for on a connection: the path and the query, without what follows a number sign.
-/
def requestPath (e : Endpoint) : String := String.ofList (e.path.toList.takeWhile (· ≠ '#'))

/-- How the client of a gateway behaves when all items arrive as soon as the connection is open. -/
def script (e : Endpoint) (s : SessionSettings) (reach : Reach) (items : List Inbound) : Script :=
  match e.connect s reach with
  | .error f => { opening := some (0, .failed f) }
  | .ok _ =>
    let heard := Inbound.heard items
    { responses := { sight := (Inbound.position? heard).elim .unknown .at }
      events := (Inbound.events items).map fun event => (0, event)
      closes := heard.any Inbound.isLast }

end Endpoint

end BotFleet
