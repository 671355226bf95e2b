/-!
# The pace of a routine

* `Pace`: how often a bot moves and chats, and how long it keeps going forward, in milliseconds.
-/

namespace BotFleet

/-- How often a bot moves and chats, and how long it holds `forward`, in milliseconds. -/
structure Pace where
  moveInterval : Nat := 2000
  moveDuration : Nat := 1000
  chatInterval : Nat := 5000
deriving DecidableEq, Inhabited

end BotFleet
