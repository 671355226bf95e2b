import BotFleet.Client
import BotFleet.Json.Printer

/-!
# Messages between a client and its gateway

* `ServerMessage`, `ClientMessage`: what the gateway and the client say;
* `ServerMessage.event?`, `ServerMessage.position?`: what a message means to a session;
* `ServerMessage.encode`, `ClientMessage.encode`: the text of a message, its kind first.
-/

namespace BotFleet

/-- What a gateway says. -/
inductive ServerMessage where
  | login
  | spawn (position : Point)
  | position (point : Point)
  | chat (username message : String)
  | kicked (reason : String)
  | ended (reason : String)
  | failed (message : String)
deriving DecidableEq, Inhabited

/-- What a client says. -/
inductive ClientMessage where
  | hello (username version : String)
  | lookAt (point : Point) (immediate : Bool)
  | controlState (control : Control) (engaged : Bool)
  | chat (message : String)
deriving DecidableEq, Inhabited

def Control.name : Control → String
  | .forward => "forward"

namespace ServerMessage

/-- The lifecycle event of a message; a mere position is none. -/
def event? : ServerMessage → Option Client.Event
  | login => some .login
  | spawn _ => some .spawn
  | position _ => none
  | chat username message => some (.chat username message)
  | kicked reason => some (.kicked reason)
  | ended reason => some (.ended reason)
  | failed message => some (.failed message)

/-- Where a message says that the avatar is. -/
def position? : ServerMessage → Option Point
  | spawn p => some p
  | position p => some p
  | _ => none

/-- A message that says that the game session is over. -/
def isEnd : ServerMessage → Bool
  | ended _ => true
  | _ => false

/-- The name of a message's kind. -/
def kind : ServerMessage → String
  | login => "login"
  | spawn _ => "spawn"
  | position _ => "position"
  | chat .. => "chat"
  | kicked _ => "kicked"
  | ended _ => "end"
  | failed _ => "error"

/-- The members of a message besides its kind. -/
def members : ServerMessage → List (String × Json)
  | login => []
  | spawn p => [("position", p.toJson)]
  | position p => p.members
  | chat username message => [("username", .str username), ("message", .str message)]
  | kicked reason => [("reason", .str reason)]
  | ended reason => [("reason", .str reason)]
  | failed message => [("message", .str message)]

def toJson (m : ServerMessage) : Json := .obj (("type", .str m.kind) :: m.members)

/-- The text of a message. -/
def encode (m : ServerMessage) : String := m.toJson.compact

end ServerMessage

namespace ClientMessage

/-- The name of a message's kind. -/
def kind : ClientMessage → String
  | hello .. => "hello"
  | lookAt .. => "lookAt"
  | controlState .. => "controlState"
  | chat _ => "chat"

/-- The members of a message besides its kind. -/
def members : ClientMessage → List (String × Json)
  | hello username version => [("username", .str username), ("version", .str version)]
  | lookAt p immediate => p.members ++ [("immediate", .bool immediate)]
  | controlState control engaged =>
    [("control", .str control.name), ("engaged", .bool engaged)]
  | chat message => [("message", .str message)]

def toJson (m : ClientMessage) : Json := .obj (("type", .str m.kind) :: m.members)

/-- The text of a message. -/
def encode (m : ClientMessage) : String := m.toJson.compact

/-- The message that asks for a call. -/
def ofCall : Client.Call → ClientMessage
  | .lookAt point immediate => lookAt point immediate
  | .setControl control engaged => controlState control engaged
  | .chat text => chat text

end ClientMessage

end BotFleet
