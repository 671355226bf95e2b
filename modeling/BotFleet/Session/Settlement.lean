import BotFleet.Session.Verdict

/-!
# Settling a login once

A settlement takes the first verdict that it is given and hands it over once, to the one receiver
that waits for it.

* `Settlement.settle`: give a verdict; the first one counts;
* `Settlement.abandon`: the giving side goes away;
* `Settlement.receive`: ask for the verdict without waiting;
* `Settlement.dropReceiver`: the receiving side goes away.
-/

namespace BotFleet

namespace Settlement

/-- What lies between the two sides. -/
inductive Slot where
  | vacant
  | holding (verdict : Verdict)
  | spent
deriving DecidableEq, Inhabited

/-- The answer to a receiver that does not wait. -/
inductive Answer where
  | dropped
  | empty
  | closed
  | verdict (v : Verdict)
deriving DecidableEq, Inhabited

end Settlement

/-- A verdict in transit from the session to whoever waits for its login. -/
structure Settlement where
  settled : Bool := false
  slot : Settlement.Slot := .vacant
  listening : Bool := true
deriving DecidableEq, Inhabited

namespace Settlement

def start : Settlement := {}

/-- Give a verdict, and say whether it was the first; without a receiver it is lost. -/
def settle (s : Settlement) (v : Verdict) : Settlement × Bool :=
  if s.settled then (s, false)
  else ({ s with settled := true, slot := if s.listening then .holding v else .spent }, true)

/-- The giving side goes away; a verdict that was never given will not come. -/
def abandon (s : Settlement) : Settlement :=
  if s.settled then s else { s with slot := .spent }

/-- Ask for the verdict without waiting; it is handed over once. -/
def receive (s : Settlement) : Settlement × Answer :=
  if s.listening then
    match s.slot with
    | .vacant => (s, .empty)
    | .holding v => ({ s with slot := .spent }, .verdict v)
    | .spent => (s, .closed)
  else (s, .dropped)

/-- The receiver goes away, and with it a verdict not yet handed over. -/
def dropReceiver (s : Settlement) : Settlement × Bool :=
  ({ s with
      listening := false
      slot := match s.slot with
        | .holding _ => .spent
        | slot => slot }, s.listening)

end Settlement

end BotFleet
