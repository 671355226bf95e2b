import BotFleet.Json.Value

/-!
# What a session connects to

* `Target`: the server, and the protocol version that bots announce;
* `identityOf`: the name of a bot;
* `SessionSettings`: one session's name and target.
-/

namespace BotFleet

/-- The server that bots connect to, and the protocol version that they announce. -/
structure Target where
  host : String
  port : UInt16
  version : String
deriving DecidableEq, Inhabited

/-- The name of the bot with a given number. -/
def identityOf (index : Nat) : String := s!"Bot{index}"

/-- The name of a session and what it connects to. -/
structure SessionSettings where
  identity : String
  target : Target
deriving DecidableEq, Inhabited

def SessionSettings.toJson (s : SessionSettings) : Json :=
  .obj [
    ("identity", .str s.identity),
    ("host", .str s.target.host),
    ("port", .nat s.target.port.toNat),
    ("protocolVersion", .str s.target.version)]

end BotFleet
