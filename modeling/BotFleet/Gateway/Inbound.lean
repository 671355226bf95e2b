import BotFleet.Gateway.Decoding

/-!
# What arrives from a gateway

* `Inbound`: an item that arrives on a connection;
* `Inbound.message?`, `Inbound.farewell?`: the message that an item carries, and the event that an
  item ends the stream with;
* `Inbound.heard`, `Inbound.events`: what is read of a row of items, and the events that it comes
  to;
* `Inbound.position?`: where the avatar is after a row of items.
-/

namespace BotFleet

/-- An item that arrives on a connection: a text, a frame without one, a closing frame, an error of
the transport, or the end of the connection. -/
inductive Inbound where
  | text (frame : String)
  | silent
  | closing (reason : Option String)
  | broken (message : String)
  | hungUp
deriving DecidableEq, Inhabited

namespace Inbound

/-- The message of a text; a text that is none is passed over. -/
def message? : Inbound → Option ServerMessage
  | text frame => (ServerMessage.decode? frame).toOption
  | _ => none

/-- What the end of a connection counts as when the gateway gives no reason. -/
def noReason : String := "connection closed"

/-- The reason of a closing frame; an empty one is none. -/
def reasonOf (reason : Option String) : String :=
  match reason with
  | some r => if r = "" then noReason else r
  | none => noReason

/-- The event that an item ends the stream with. -/
def farewell? : Inbound → Option Client.Event
  | closing reason => some (.ended (reasonOf reason))
  | broken message => some (.failed message)
  | hungUp => some (.ended noReason)
  | text _ | silent => none

/-- The event that an item comes to. -/
def event? (item : Inbound) : Option Client.Event :=
  match item.farewell? with
  | some e => some e
  | none => item.message?.bind ServerMessage.event?

/-- Nothing is read after this item. -/
def isLast (item : Inbound) : Bool :=
  item.farewell?.isSome || item.message?.any ServerMessage.isEnd

/-- What is read of a row of items: it ends with the first item after which nothing is read. -/
def heard : List Inbound → List Inbound
  | [] => []
  | item :: rest => item :: if item.isLast then [] else heard rest

/-- The events that a row of items comes to. -/
def events (items : List Inbound) : List Client.Event := (heard items).filterMap event?

/-- Where the avatar is after the items of a row have been read: where the last message that tells
it says. -/
def position? (items : List Inbound) : Option Point :=
  (items.filterMap fun item => item.message?.bind ServerMessage.position?).getLast?

end Inbound

end BotFleet
