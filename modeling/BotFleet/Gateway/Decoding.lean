import BotFleet.Gateway.Frame
import BotFleet.Gateway.Message

/-!
# Reading messages

* `Field.control`: a control, by its name or as an object with that name;
* `ServerMessage.union`, `ClientMessage.union`: the variants of the two kinds of messages;
* `ServerMessage.decode?`, `ClientMessage.decode?`: the message of a text.
-/

namespace BotFleet

namespace Field

/-- The control of a name. -/
def controlOf (name : String) : Except Mismatch Control :=
  if name = Control.forward.name then .ok .forward
  else .error (.unknownVariant name [Control.forward.name])

/-- A field that holds a control: its name, or an object whose only member has that name and holds
nothing. -/
def control (name : String) : Field where
  name
  Value := Control
  read
    | .str s => controlOf s
    | .obj [(s, v)] => do
      let c ← controlOf s
      match v with
      | .null | .obj [] => .ok c
      | v => wrong "unit" v
    | .obj _ => .error (.wrongValue "map" "map with a single key")
    | v => wrong "string or map" v

end Field

namespace ServerMessage

/-- What a gateway can say. -/
def union : Union ServerMessage where
  title := "ServerMessage"
  variants := [
    ⟨"login", "Login", [], fun () => login⟩,
    ⟨"spawn", "Spawn", [.point "position"], fun (p, ()) => spawn p⟩,
    ⟨"position", "Position", Field.coordinates, fun r => position (Field.toPoint r)⟩,
    ⟨"chat", "Chat", [.text "username", .text "message"],
      fun (username, message, ()) => chat username message⟩,
    ⟨"kicked", "Kicked", [.text "reason"], fun (reason, ()) => kicked reason⟩,
    ⟨"end", "End", [.text "reason"], fun (reason, ()) => ended reason⟩,
    ⟨"error", "Error", [.text "message"], fun (message, ()) => failed message⟩]

/-- The message of a text. -/
def decode? (text : String) : Except FrameFlaw ServerMessage := union.ofText? text

end ServerMessage

namespace ClientMessage

/-- What a client can say. -/
def union : Union ClientMessage where
  title := "ClientMessage"
  variants := [
    ⟨"hello", "Hello", [.text "username", .text "version"],
      fun (username, version, ()) => hello username version⟩,
    ⟨"lookAt", "LookAt", [.number "x", .number "y", .number "z", .flag "immediate"],
      fun (x, y, z, immediate, ()) => lookAt ⟨x, y, z⟩ immediate⟩,
    ⟨"controlState", "ControlState", [.control "control", .flag "engaged"],
      fun (control, engaged, ()) => controlState control engaged⟩,
    ⟨"chat", "Chat", [.text "message"], fun (message, ()) => chat message⟩]

/-- The message of a text. -/
def decode? (text : String) : Except FrameFlaw ClientMessage := union.ofText? text

end ClientMessage

end BotFleet
