import BotFleet.Client

/-!
# How a client responds

* `Client.Answer`: a call is done, is refused, or brings its caller down;
* `Client.Sight`: where the client says that its avatar is;
* `Client.Responses`: the responses of a client, which may change at any time.
-/

namespace BotFleet.Client

/-- The answer to a call. -/
inductive Answer where
  | done
  | refused (f : Fault)
  | crash
deriving DecidableEq, Inhabited

/-- Where a client says that its avatar is. -/
inductive Sight where
  | unknown
  | at (p : Point)
  | crash
deriving DecidableEq, Inhabited

/-- The responses of a client; `look`, `engage`, `release` and `chat` answer its calls. -/
structure Responses where
  sight : Sight := .unknown
  look : Answer := .done
  engage : Answer := .done
  release : Answer := .done
  chat : Answer := .done
deriving DecidableEq, Inhabited

end BotFleet.Client
